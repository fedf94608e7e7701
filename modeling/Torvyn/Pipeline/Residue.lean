/-
# What a pipeline leaves behind

The buffers that the components of a pipeline allocate, from the first `lifecycle.init` on.  A
store is created with the flow id 0, and the coordinator puts the id of the flow on all stores
when the flow is spawned; it reclaims by component and by flow when the flow is reaped.  What a
component has allocated under the id 0 and has handed on is found by neither sweep, and a
pipeline that is not spawned is not reclaimed at all: `no_residue_iff` says which runs leave
nothing behind all the same.
-/
import Torvyn.Engine.Wrappers
import Torvyn.Pipeline.Isolation

namespace Torvyn.Pipeline.Residue

open Torvyn.Engine Torvyn.ResourceManager

/-! ## A host with a pipeline -/

/-- How far `instantiate_pipeline` and the flow that it spawns have come. -/
inductive Phase where
  | instantiating
  | failed
  | running (flowId : FlowId)
  | reaped (flowId : FlowId)
  deriving DecidableEq

/-- The host: the stores of the pipeline and the manager that they share with everyone else, and
the nodes that have a store.  The origin of a live buffer, the node whose component has allocated
it, is not part of the program. -/
structure PipelineHost where
  engine : EngineState
  created : List ℕ
  phase : Phase
  origin : ResourceId → Option ℕ

namespace PipelineHost

/-- The live resources. -/
abbrev live (c : PipelineHost) : List (ResourceId × ResourceEntry) := c.engine.resources.table.iter

/-- The component of the node has allocated something that is live. -/
def Holds (nodeIdx : ℕ) (c : PipelineHost) : Prop :=
  ∃ p ∈ c.live, c.origin p.1 = some nodeIdx

/-- The buffer is live, and a component of the pipeline has allocated it. -/
def Own (handle : BufferHandle) (c : PipelineHost) : Prop :=
  ∃ p ∈ c.live, p.1 = handle.resourceId ∧ c.origin p.1 ≠ none

/-- Nothing is live that a component of the pipeline has allocated. -/
def Clean (c : PipelineHost) : Prop := ∀ nodeIdx, ¬c.Holds nodeIdx

end PipelineHost

/-- What happens: `create_store` for a node, a component calls a host function or an element
crosses into a store or out of it, the instantiation fails, the reactor spawns the flow and
reaps it, or someone else calls the manager. -/
inductive Action where
  | createStore (nodeIdx : ℕ)
  | event (wt : Wasmtime) (event : Event)
  | fail
  | spawnFlow (flowId : FlowId)
  | reap (hash : HashOrder)
  | other (op : Op)

/-- The node whose component acts. -/
def Action.actor : Action → Option ℕ
  | .event _ (.call nodeIdx _) => some nodeIdx
  | _ => none

/-- A store as `create_store` leaves it: with the sentinel 0 for the flow and no wrappers. -/
def newStore (nodeIdx : ℕ) : Store := ⟨componentIdOf nodeIdx, ⟨0⟩, fun _ => none⟩

/-- `set_flow_id`, on every instance. -/
def setFlowId (flowId : FlowId) (stores : ℕ → Store) : ℕ → Store :=
  fun nodeIdx => { stores nodeIdx with flowId := flowId }

/-- The components of a pipeline, as the coordinator keeps them with the flow. -/
def componentIds (t : PipelineTopology) : List ComponentId :=
  (flowTopology t).stages.map (·.componentId)

namespace PipelineHost

/-- What an action does to the stores and to the manager. -/
def engineNext (t : PipelineTopology) (c : PipelineHost) : Action → EngineState
  | .createStore nodeIdx =>
    { c.engine with
      stores := Function.update c.engine.stores nodeIdx (newStore nodeIdx)
      resources := c.engine.resources.registerComponent (componentIdOf nodeIdx) none }
  | .event wt event => c.engine.step wt event
  | .fail => c.engine -- the instances are dropped, and `Drop for HostState` reclaims nothing
  | .spawnFlow flowId =>
    { c.engine with
      stores := setFlowId flowId c.engine.stores
      resources := c.engine.resources.registerFlow flowId }
  | .reap hash =>
    match c.phase with
    | .running flowId =>
      { c.engine with
        resources := (c.engine.resources.reclaimFlowResources flowId
          ((componentIds t).map fun component => (component, hash)) hash).2 }
    | _ => c.engine
  | .other op => { c.engine with resources := (c.engine.resources.step op).2 }

/-- The phase after an action. -/
def phaseNext (c : PipelineHost) : Action → Phase
  | .fail => .failed
  | .spawnFlow flowId => .running flowId
  | .reap _ =>
    match c.phase with
    | .running flowId => .reaped flowId
    | phase => phase
  | _ => c.phase

/-- The nodes that have a store after an action. -/
def createdNext (c : PipelineHost) : Action → List ℕ
  | .createStore nodeIdx => c.created ++ [nodeIdx]
  | _ => c.created

/-- The state after an action.  A buffer that was not live before comes from who acts. -/
def next (t : PipelineTopology) (c : PipelineHost) (action : Action) : PipelineHost where
  engine := c.engineNext t action
  created := c.createdNext action
  phase := c.phaseNext action
  origin id := if id ∈ c.live.map Prod.fst then c.origin id else action.actor

/-- What someone else does: it names no buffer of the pipeline, and reclaims neither a component
nor the flow of the pipeline, nor the id 0, which is that of no flow. -/
def Foreign (t : PipelineTopology) (c : PipelineHost) : Op → Prop
  | .release handle _ | .transferOwnership handle _ _ | .borrowStart handle _
  | .borrowEnd handle _ | .readPayload handle _ _ _ _ | .writePayload handle _ _ _ _ =>
    ¬c.Own handle
  | .forceReclaim component _ => component ∉ componentIds t
  | .reclaimFlowBuffers flowId _ | .releaseFlowResources flowId _ =>
    flowId ≠ ⟨0⟩ ∧ c.phase ≠ .running flowId
  | _ => True

/-- When an action is possible.  Components are called from their `lifecycle.init` on; elements
cross while the flow runs, whose id is not 0. -/
def Possible (t : PipelineTopology) (c : PipelineHost) : Action → Prop
  | .createStore nodeIdx =>
    c.phase = .instantiating ∧ nodeIdx ∉ c.created ∧ nodeIdx < t.nodes.length
  | .event _ (.call nodeIdx _) =>
    nodeIdx ∈ c.created ∧ (c.phase = .instantiating ∨ ∃ flowId, c.phase = .running flowId)
  | .event _ (.marshal nodeIdx _) | .event _ (.convert nodeIdx _) | .event _ (.reclaim nodeIdx _) =>
    nodeIdx ∈ c.created ∧ ∃ flowId, c.phase = .running flowId
  | .fail => c.phase = .instantiating
  | .spawnFlow flowId =>
    c.phase = .instantiating ∧ flowId ≠ ⟨0⟩ ∧ ∀ nodeIdx < t.nodes.length, nodeIdx ∈ c.created
  | .reap _ => ∃ flowId, c.phase = .running flowId
  | .other op => c.Foreign t op

end PipelineHost

/-- How it ends: the instantiation fails, or the flow is reaped. -/
inductive Ending where
  | failed
  | reaped (hash : HashOrder)

/-- The last action. -/
def Ending.action : Ending → Action
  | .failed => .fail
  | .reaped hash => .reap hash

/-- A pipeline on a host that is in use, from its instantiation to its end. -/
structure PipelineRun where
  topology : PipelineTopology
  manager : StartedManager
  ops : List Op
  actions : List Action
  ending : Ending
  possible : Guarded (PipelineHost.next topology) (PipelineHost.Possible topology)
    ⟨⟨newStore, manager.after ops, ∅⟩, [], .instantiating, fun _ => none⟩
    (actions ++ [ending.action])

namespace PipelineRun

/-- The host before the pipeline is instantiated. -/
def start (ρ : PipelineRun) : PipelineHost :=
  ⟨⟨newStore, ρ.manager.after ρ.ops, ∅⟩, [], .instantiating, fun _ => none⟩

/-- The state after some actions. -/
def stateAfter (ρ : PipelineRun) (actions : List Action) : PipelineHost :=
  actions.foldl (PipelineHost.next ρ.topology) ρ.start

/-- The state in which the instantiation fails or the flow is reaped. -/
def last (ρ : PipelineRun) : PipelineHost := ρ.stateAfter ρ.actions

/-- The state after that. -/
def final (ρ : PipelineRun) : PipelineHost := ρ.stateAfter (ρ.actions ++ [ρ.ending.action])

/-- The components have given back what the end does not reclaim.  When the instantiation fails:
the last call that a component makes leaves nothing live that it has allocated.  When the flow
is reaped: what has been allocated before the flow was spawned, under the id 0, is with one of
the components. -/
def GivenBack (ρ : PipelineRun) : Prop :=
  match ρ.ending with
  | .failed => ∀ nodeIdx before wt call after,
      ρ.actions = before ++ .event wt (.call nodeIdx call) :: after →
      (∀ action ∈ after, action.actor ≠ some nodeIdx) →
      ¬(ρ.stateAfter (before ++ [.event wt (.call nodeIdx call)])).Holds nodeIdx
  | .reaped _ => ∀ p ∈ ρ.last.live, ρ.last.origin p.1 ≠ none → p.2.flowId = ⟨0⟩ →
      OwnedBy (componentIds ρ.topology) p.2

end PipelineRun

/-! ## What a step does to the live resources -/

/-- A live resource was live before, with the same owner and the same flow, or the store's
component has just allocated it. -/
theorem live_of_called {h h' : HostState} (hcalled : Called h h') {p : ResourceId × ResourceEntry}
    (hp : p ∈ h'.resources.table.iter) :
    (∃ entry, (p.1, entry) ∈ h.resources.table.iter ∧ entry.owner = p.2.owner ∧
        entry.flowId = p.2.flowId) ∨
      (p.1 ∉ h.resources.table.iter.map Prod.fst ∧ Allotted h p.2) := by
  have hinserted : ∀ {handle : BufferHandle} {entry : ResourceEntry} {m : ResourceManager},
      Allotted h entry → h.resources.table.Inserted m.table handle.resourceId entry →
      p ∈ m.table.iter → (∃ entry, (p.1, entry) ∈ h.resources.table.iter ∧
        entry.owner = p.2.owner ∧ entry.flowId = p.2.flowId) ∨
        (p.1 ∉ h.resources.table.iter.map Prod.fst ∧ Allotted h p.2) := by
    intro handle entry m hentry hins hp
    rcases List.mem_cons.mp (hins.live.mem_iff.mp hp) with rfl | hold
    · exact .inr ⟨hins.fresh, hentry⟩
    · exact .inl ⟨p.2, hold, rfl, rfl⟩
  cases hcalled with
  | quiet m hsame => exact .inl ⟨p.2, hsame.live.mem_iff.mp hp, rfl, rfl⟩
  | wrote rep wrapper entry newEnd m _ _ hreplaced =>
      rcases hreplaced.cases hp with rfl | ⟨hold, -⟩
      · obtain ⟨rest, hlive, -⟩ := hreplaced.live
        exact .inl ⟨entry, hlive.mem_iff.mpr List.mem_cons_self, rfl, rfl⟩
      · exact .inl ⟨p.2, hold, rfl, rfl⟩
  | lost handle entry m hentry hins => exact hinserted hentry hins hp
  | gained handle entry m rep hentry hins => exact hinserted hentry hins hp
  | dropped rep wrapper entry m _ _ hremoved =>
      exact .inl ⟨p.2, hremoved.live.mem_iff.mpr (List.mem_cons_of_mem _ hp), rfl, rfl⟩
  | unwrapped | froze | forgot => exact .inl ⟨p.2, hp, rfl, rfl⟩

/-- What is live stays live, unless a wrapper of the store names it. -/
theorem stays_of_called {h h' : HostState} (hcalled : Called h h') {p : ResourceId × ResourceEntry}
    (hp : p ∈ h.resources.table.iter)
    (hunnamed : ∀ rep wrapper, h.table rep = some wrapper → wrapper.handle ≠ frozenSentinel →
      wrapper.handle.resourceId ≠ p.1) :
    ∃ p' ∈ h'.resources.table.iter, p'.1 = p.1 := by
  cases hcalled with
  | quiet m hsame => exact ⟨p, hsame.live.mem_iff.mpr hp, rfl⟩
  | wrote rep wrapper entry newEnd m _ _ hreplaced =>
      by_cases hid : p.1 = wrapper.handle.resourceId
      · exact ⟨_, hreplaced.mem, hid.symm⟩
      · exact ⟨p, hreplaced.mem_of_ne hp hid, rfl⟩
  | lost handle entry m _ hins | gained handle entry m rep _ hins =>
      exact ⟨p, hins.live.mem_iff.mpr (List.mem_cons_of_mem _ hp), rfl⟩
  | dropped rep wrapper entry m hrep hne hremoved =>
      exact ⟨p, hremoved.mem_of_ne hp (Ne.symm (hunnamed rep wrapper hrep hne)), rfl⟩
  | unwrapped | froze | forgot => exact ⟨p, hp, rfl⟩

/-- A wrapper names what a wrapper of the store named before, or a new buffer. -/
theorem named_of_called {h h' : HostState} (hcalled : Called h h') {rep : ℕ} {wrapper : Wrapper}
    (hrep : h'.table rep = some wrapper) (hne : wrapper.handle ≠ frozenSentinel) :
    (∃ rep₀ wrapper₀, h.table rep₀ = some wrapper₀ ∧ wrapper₀.handle = wrapper.handle) ∨
      wrapper.handle.resourceId ∉ h.resources.table.iter.map Prod.fst := by
  -- the wrapper at a place that changes, or at another one
  have hupdate : ∀ {table : WrapperTable} {rep' : ℕ} {w : Option Wrapper},
      Function.update table rep' w rep = some wrapper → w = some wrapper ∨
        table rep = some wrapper := by
    intro table rep' w heq
    by_cases hsame : rep = rep'
    · rw [hsame, Function.update_self] at heq
      exact .inl heq
    · rw [Function.update_of_ne hsame] at heq
      exact .inr heq
  cases hcalled with
  | quiet | wrote | lost => exact .inl ⟨rep, wrapper, hrep, rfl⟩
  | gained handle entry m rep' _ hins =>
      rcases hupdate hrep with hnew | hold
      · obtain rfl := Option.some.inj hnew
        exact .inr hins.fresh
      · exact .inl ⟨rep, wrapper, hold, rfl⟩
  | unwrapped rep' mutable =>
      rcases hupdate hrep with hnew | hold
      · obtain rfl := Option.some.inj hnew
        exact absurd rfl hne
      · exact .inl ⟨rep, wrapper, hold, rfl⟩
  | froze rep' mutable frozen hmutable =>
      rcases hupdate hrep with hnew | hold
      · obtain rfl := Option.some.inj hnew
        exact .inl ⟨rep', mutable, hmutable, rfl⟩
      · rcases hupdate hold with hspent | hold
        · obtain rfl := Option.some.inj hspent
          exact absurd rfl hne
        · exact .inl ⟨rep, wrapper, hold, rfl⟩
  | dropped rep' wrapper' | forgot rep' wrapper' =>
      rcases hupdate hrep with hnone | hold
      · cases hnone
      · exact .inl ⟨rep, wrapper, hold, rfl⟩

/-- A host function leaves the component and the flow of its store. -/
theorem store_of_called {h h' : HostState} (hcalled : Called h h') :
    h'.componentId = h.componentId ∧ h'.flowId = h.flowId := by
  cases hcalled
  all_goals exact ⟨rfl, rfl⟩

/-- What becomes of a live resource when an entry is replaced. -/
theorem live_of_replaced {table table' : ResourceTable} {handle : BufferHandle}
    {entry entry' : ResourceEntry} (hreplaced : table.Replaced table' handle entry entry')
    (hflow : entry'.flowId = entry.flowId) {p : ResourceId × ResourceEntry}
    (hp : p ∈ table'.iter) : ∃ entry, (p.1, entry) ∈ table.iter ∧ entry.flowId = p.2.flowId := by
  rcases hreplaced.cases hp with rfl | ⟨hold, -⟩
  · obtain ⟨rest, hlive, -⟩ := hreplaced.live
    exact ⟨entry, hlive.mem_iff.mpr List.mem_cons_self, hflow.symm⟩
  · exact ⟨p.2, hold, rfl⟩

/-- After an operation a live resource was live before, for the same flow, or it is new. -/
theorem live_of_op (m : ResourceManager) (op : Op) {p : ResourceId × ResourceEntry}
    (hp : p ∈ (m.step op).2.table.iter) :
    (∃ entry, (p.1, entry) ∈ m.table.iter ∧ entry.flowId = p.2.flowId) ∨
      p.1 ∉ m.table.iter.map Prod.fst := by
  have hstep := step_cases m op
  generalize (m.step op).1 = reply at hstep
  generalize (m.step op).2 = after at hstep hp
  cases hstep with
  | registeredFlow | registeredComponent | refused | exhausted | rolledBack | charged | read =>
      exact .inl ⟨p.2, hp, rfl⟩
  | admitted alloc owner n flowId budgets buffer pools heap id table _ _ _ hins =>
      rcases List.mem_cons.mp (hins.live.mem_iff.mp hp) with rfl | hold
      · exact .inr hins.fresh
      · exact .inl ⟨p.2, hold, rfl⟩
  | dropped handle caller entry table _ _ hremoved =>
      exact .inl ⟨p.2, hremoved.live.mem_iff.mpr (List.mem_cons_of_mem _ hp), rfl⟩
  | moved handle sender recipient entry budgets hget =>
      exact .inl (live_of_replaced (.of_put hget { entry with owner := recipient } rfl) rfl hp)
  | borrowStarted handle borrower entry borrowed hget hok =>
      obtain ⟨hsame, -, -⟩ := borrowStart_same hok
      exact .inl (live_of_replaced (.of_put hget borrowed hsame.generation) hsame.flowId hp)
  | borrowEnded handle borrower entry returned hget hok =>
      obtain ⟨hsame, -, -⟩ := borrowEnd_same hok
      exact .inl (live_of_replaced (.of_put hget returned hsame.generation) hsame.flowId hp)
  | wrote handle caller offset data flowId entry hget =>
      exact .inl (live_of_replaced (.of_put hget (writtenEntry entry _) rfl) rfl hp)
  | forceReclaimed component hash =>
      obtain ⟨removed, hswept⟩ := forceReclaim_swept (m := m) component hash
      exact .inl ⟨p.2, hswept.mem_of_mem hp, rfl⟩
  | flowReclaimed flowId hash | flowReleased flowId hash =>
      obtain ⟨removed, hswept⟩ := reclaimFlow_swept (m := m) flowId hash
      exact .inl ⟨p.2, hswept.mem_of_mem hp, rfl⟩

/-- After an event a live resource was live before, for the same flow, or the component of a store
has just allocated it for the flow of the store. -/
theorem live_of_event (wt : Wasmtime) (event : Event) (e : EngineState)
    {p : ResourceId × ResourceEntry} (hp : p ∈ (e.step wt event).resources.table.iter) :
    (∃ entry, (p.1, entry) ∈ e.resources.table.iter ∧ entry.flowId = p.2.flowId) ∨
      (p.1 ∉ e.resources.table.iter.map Prod.fst ∧
        ∃ nodeIdx, p.2.flowId = (e.stores nodeIdx).flowId) := by
  cases event with
  | call nodeIdx call =>
      rcases live_of_called (Called.call wt (e.store nodeIdx) call) hp with
        ⟨entry, hold, -, hflow⟩ | ⟨hfresh, hnew⟩
      · exact .inl ⟨entry, hold, hflow⟩
      · exact .inr ⟨hfresh, nodeIdx, hnew.flowId⟩
  | marshal nodeIdx element =>
      have hp : p ∈ ((e.store nodeIdx).toWitStreamElement wt element).2.resources.table.iter := hp
      rcases HostState.marshal_cases wt element (e.store nodeIdx) with ⟨-, heq⟩ | ⟨rep, -, -, heq⟩
      all_goals
        rw [heq] at hp
        exact .inl ⟨p.2, hp, rfl⟩
  | convert nodeIdx out =>
      simp only [EngineState.step] at hp
      rcases HostState.convert_cases wt out (e.stores nodeIdx).componentId (e.store nodeIdx) with
        ⟨err, heq⟩ | ⟨err, wrapper, -, heq, -⟩ | ⟨wrapper, entry, m, -, hget, -, htable, heq⟩
      · rw [heq] at hp
        exact .inl ⟨p.2, hp, rfl⟩
      · rw [heq] at hp
        exact .inl ⟨p.2, hp, rfl⟩
      · rw [heq] at hp
        have hp : p ∈ m.table.iter := hp
        rw [htable] at hp
        exact .inl (live_of_replaced (.of_put hget { entry with owner := .host } rfl) rfl hp)
  | reclaim nodeIdx inputRep =>
      have hp : p ∈ ((e.store nodeIdx).reclaimInputElement wt inputRep
        (e.stores nodeIdx).componentId).2.resources.table.iter := hp
      rcases HostState.reclaim_cases wt inputRep (e.stores nodeIdx).componentId (e.store nodeIdx)
        with ⟨err, heq⟩ | ⟨err, wrapper, -, heq, -⟩ | ⟨wrapper, entry, m, -, -, hremoved, -, heq⟩
      · rw [heq] at hp
        exact .inl ⟨p.2, hp, rfl⟩
      · rw [heq] at hp
        exact .inl ⟨p.2, hp, rfl⟩
      · rw [heq] at hp
        exact .inl ⟨p.2, hremoved.live.mem_iff.mpr (List.mem_cons_of_mem _ hp), rfl⟩

/-- An event leaves the components and the flows of the stores. -/
theorem store_of_event (wt : Wasmtime) (event : Event) (e : EngineState) (nodeIdx : ℕ) :
    ((e.step wt event).stores nodeIdx).componentId = (e.stores nodeIdx).componentId ∧
      ((e.step wt event).stores nodeIdx).flowId = (e.stores nodeIdx).flowId := by
  have hput : ∀ {s : ℕ} {h : HostState}, h.componentId = (e.stores s).componentId ∧
      h.flowId = (e.stores s).flowId →
      ((e.put s h).stores nodeIdx).componentId = (e.stores nodeIdx).componentId ∧
        ((e.put s h).stores nodeIdx).flowId = (e.stores nodeIdx).flowId := by
    intro s h hsame
    by_cases hs : nodeIdx = s
    · subst hs
      simpa [EngineState.put] using hsame
    · simp [EngineState.put, hs]
  cases event with
  | call s call => exact hput (store_of_called (Called.call wt (e.store s) call))
  | marshal s element =>
      refine hput ?_
      rcases HostState.marshal_cases wt element (e.store s) with ⟨-, heq⟩ | ⟨rep, -, -, heq⟩
      all_goals
        rw [heq]
        exact ⟨rfl, rfl⟩
  | convert s out =>
      simp only [EngineState.step]
      rcases HostState.convert_cases wt out (e.stores s).componentId (e.store s) with
        ⟨err, heq⟩ | ⟨err, wrapper, -, heq, -⟩ | ⟨wrapper, entry, m, -, -, -, -, heq⟩
      all_goals
        rw [heq]
        exact hput ⟨rfl, rfl⟩
  | reclaim s inputRep =>
      refine hput ?_
      rcases HostState.reclaim_cases wt inputRep (e.stores s).componentId (e.store s) with
        ⟨err, heq⟩ | ⟨err, wrapper, -, heq, -⟩ | ⟨wrapper, entry, m, -, -, -, -, heq⟩
      all_goals
        rw [heq]
        exact ⟨rfl, rfl⟩

/-! ## The manager is reached by its operations -/

section Reaches

variable {s : StartedManager} {h : HostState} {wt : Wasmtime}

theorem reaches_readRange (hreaches : Reaches s h.resources) (wrapper : Wrapper)
    (offset len : ℕ) : Reaches s (h.readRange wrapper offset len).2.resources := by
  unfold HostState.readRange
  split_ifs
  · exact hreaches
  · exact hreaches.step (.readPayload wrapper.handle wrapper.owner offset len h.flowId)

theorem reaches_wrap (hreaches : Reaches s h.resources) (handle : BufferHandle) :
    Reaches s (HostState.wrap wt handle h).2.resources := by
  rw [Operations.wrap_resources]
  exact hreaches

theorem reaches_drop (hreaches : Reaches s h.resources) (kind : WrapperKind) (rep : ℕ) :
    Reaches s (h.drop kind rep).2.resources := by
  unfold HostState.drop
  split
  · exact hreaches
  · split_ifs
    · exact hreaches
    · exact hreaches.step (.release _ _)

theorem reaches_allocate (hreaches : Reaches s h.resources) (alloc : Allocator)
    (capacityHint : ℕ) : Reaches s (h.allocate wt alloc capacityHint).2.resources := by
  unfold HostState.allocate
  split_ifs
  · exact hreaches
  · have hallocated :=
      hreaches.step (.allocate alloc h.componentOwner capacityHint h.flowId)
    have hallocated : Reaches s
        (h.resources.allocate alloc h.componentOwner capacityHint h.flowId).2 := hallocated
    split
    · rename_i e m heq
      rwa [heq] at hallocated
    · rename_i handle m heq
      rw [heq] at hallocated
      exact reaches_wrap (h := { h with resources := m }) hallocated handle

theorem reaches_allocateCopy (hreaches : Reaches s h.resources) (alloc : Allocator)
    (bytes : List UInt8) (total : ℕ) :
    Reaches s (h.allocateCopy wt alloc bytes total).2.resources := by
  unfold HostState.allocateCopy
  have hallocated : Reaches s
      (h.resources.allocate alloc h.componentOwner (max total 1) h.flowId).2 :=
    hreaches.step (.allocate alloc h.componentOwner (max total 1) h.flowId)
  simp only
  split
  · rename_i e m heq
    rwa [heq] at hallocated
  · rename_i handle m heq
    rw [heq] at hallocated
    split_ifs
    · exact reaches_wrap (h := { h with resources := m }) hallocated handle
    · have hwritten : Reaches s (m.writePayload handle h.componentOwner 0 bytes h.flowId).2 :=
        hallocated.step (.writePayload handle h.componentOwner 0 bytes h.flowId)
      split
      · rename_i e m' heq'
        rw [heq'] at hwritten
        exact hwritten.step (.release handle h.componentOwner)
      · rename_i m' heq'
        rw [heq'] at hwritten
        exact reaches_wrap (h := { h with resources := m' }) hwritten handle

/-- A host function is a sequence of operations of the manager. -/
theorem reaches_call (hreaches : Reaches s h.resources) (call : HostCall) :
    Reaches s (h.call wt call).resources := by
  cases call with
  | allocate alloc capacityHint => exact reaches_allocate hreaches alloc capacityHint
  | cloneIntoMutable alloc source =>
      show Reaches s (h.cloneIntoMutable wt alloc source).2.resources
      unfold HostState.cloneIntoMutable
      split
      · exact hreaches
      · split
        · exact hreaches
        · rename_i wrapper _ _ total _
          have hread := reaches_readRange hreaches wrapper 0 total
          split
          · rename_i e h' heq
            rwa [heq] at hread
          · rename_i bytes h' heq
            rw [heq] at hread
            exact reaches_allocateCopy hread alloc bytes total
  | write rep offset bytes =>
      show Reaches s (h.write rep offset bytes).2.resources
      unfold HostState.write
      split
      · exact hreaches
      · split_ifs
        · exact hreaches
        · exact hreaches.step (.writePayload _ _ _ _ _)
  | append rep bytes =>
      show Reaches s (h.append rep bytes).2.resources
      unfold HostState.append
      split
      · exact hreaches
      · split
        · exact hreaches
        · exact hreaches.step (.writePayload _ _ _ _ _)
  | freeze rep =>
      show Reaches s (h.freeze wt rep).2.resources
      unfold HostState.freeze
      split
      · exact hreaches
      · dsimp only
        split <;> exact hreaches
  | read rep offset len =>
      show Reaches s (h.read rep offset len).2.resources
      unfold HostState.read
      split
      · exact hreaches
      · split
        · exact hreaches
        · exact reaches_readRange hreaches _ _ _
  | readAll rep =>
      show Reaches s (h.readAll rep).2.resources
      unfold HostState.readAll
      split
      · exact hreaches
      · split
        · exact hreaches
        · exact reaches_readRange hreaches _ _ _
  | drop kind rep => exact reaches_drop hreaches kind rep

/-- So is an event. -/
theorem reaches_event {e : EngineState} (hreaches : Reaches s e.resources) (event : Event) :
    Reaches s (e.step wt event).resources := by
  cases event with
  | call nodeIdx call => exact reaches_call (h := e.store nodeIdx) hreaches call
  | marshal nodeIdx element =>
      show Reaches s ((e.store nodeIdx).toWitStreamElement wt element).2.resources
      rcases HostState.marshal_cases wt element (e.store nodeIdx) with ⟨-, heq⟩ | ⟨rep, -, -, heq⟩
      all_goals
        rw [heq]
        exact hreaches
  | convert nodeIdx out =>
      have hconverted : Reaches s ((e.store nodeIdx).convertOutputElement wt out
          (e.stores nodeIdx).componentId).2.resources := by
        unfold HostState.convertOutputElement
        split
        · exact hreaches
        · rename_i entry table _
          have hmoved : Reaches s
              ((e.store nodeIdx).resources.transferOwnership entry.handle entry.owner .host).2 :=
            Reaches.step hreaches (.transferOwnership entry.handle entry.owner .host)
          split
          · rename_i err m heq
            rwa [heq] at hmoved
          · rename_i m heq
            rwa [heq] at hmoved
      simp only [EngineState.step]
      split
      · rename_i err h heq
        rwa [heq] at hconverted
      · rename_i output h heq
        rwa [heq] at hconverted
  | reclaim nodeIdx inputRep =>
      show Reaches s ((e.store nodeIdx).reclaimInputElement wt inputRep
        (e.stores nodeIdx).componentId).2.resources
      unfold HostState.reclaimInputElement
      split
      · exact hreaches
      · rename_i entry table _
        have hreleased : Reaches s
            ((e.store nodeIdx).resources.release entry.handle entry.owner).2 :=
          Reaches.step hreaches (.release entry.handle entry.owner)
        split
        · rename_i err m heq
          rwa [heq] at hreleased
        · rename_i m heq
          rwa [heq] at hreleased

end Reaches

/-! ## While the pipeline is instantiated -/

namespace PipelineHost

variable {t : PipelineTopology} {c : PipelineHost} {action : Action}

/-- Someone who does not name what is live leaves its origin. -/
theorem origin_next {p : ResourceId × ResourceEntry} (hp : p ∈ c.live) :
    (c.next t action).origin p.1 = c.origin p.1 :=
  if_pos (List.mem_map_of_mem hp)

/-- **Who holds something has held it before or acts.** -/
theorem holds_of_next {nodeIdx : ℕ} (h : (c.next t action).Holds nodeIdx) :
    action.actor = some nodeIdx ∨ c.Holds nodeIdx := by
  obtain ⟨p, -, horigin⟩ := h
  by_cases hlive : p.1 ∈ c.live.map Prod.fst
  · obtain ⟨p₀, hp₀, heq⟩ := List.mem_map.mp hlive
    right
    refine ⟨p₀, hp₀, ?_⟩
    rw [← horigin, heq]
    exact (if_pos hlive).symm
  · left
    rw [← horigin]
    exact (if_neg hlive).symm

/-- What the wrappers and the live resources of the pipeline are like before the flow is
spawned: a wrapper names a buffer that its own component has allocated, and what a component has
allocated it owns, under the id 0. -/
structure Instantiating (t : PipelineTopology) (c : PipelineHost) : Prop where
  backed : c.engine.Backed
  undelivered : c.engine.inFlight = ∅
  created : ∀ nodeIdx ∈ c.created, nodeIdx < t.nodes.length
  fresh : ∀ nodeIdx, nodeIdx ∉ c.created → c.engine.stores nodeIdx = newStore nodeIdx
  stores : ∀ nodeIdx, (c.engine.stores nodeIdx).componentId = componentIdOf nodeIdx ∧
    (c.engine.stores nodeIdx).flowId = ⟨0⟩
  named : ∀ nodeIdx rep wrapper, (c.engine.stores nodeIdx).table rep = some wrapper →
    wrapper.handle ≠ frozenSentinel → c.origin wrapper.handle.resourceId = some nodeIdx
  owned : ∀ p ∈ c.live, ∀ nodeIdx, c.origin p.1 = some nodeIdx → nodeIdx < t.nodes.length ∧
    p.2.owner = .component (componentIdOf nodeIdx) ∧ p.2.flowId = ⟨0⟩

/-- The ids of the components are those of the nodes. -/
theorem mem_componentIds {nodeIdx : ℕ} (h : nodeIdx < t.nodes.length) :
    componentIdOf nodeIdx ∈ componentIds t := by
  unfold componentIds
  rw [componentIds_flowTopology]
  exact List.mem_map_of_mem (List.mem_range.mpr h)

/-- The buffer of a wrapper is live. -/
theorem live_of_wrapper (hbacked : c.engine.Backed) {nodeIdx rep : ℕ} {wrapper : Wrapper}
    (hrep : (c.engine.stores nodeIdx).table rep = some wrapper)
    (hne : wrapper.handle ≠ frozenSentinel) : ∃ p ∈ c.live, p.1 = wrapper.handle.resourceId := by
  obtain ⟨entry, hmem, -⟩ := hbacked.owned (EngineState.claims_wrapper hrep hne)
  exact ⟨_, hmem, rfl⟩

/-- What others do leaves the buffers of the pipeline as they are. -/
theorem live_of_foreign (hindexed : IndexedManager c.engine.resources)
    (h : Instantiating t c) {op : Op} (hforeign : c.Foreign t op)
    {p : ResourceId × ResourceEntry} (hp : p ∈ c.live) (howned : c.origin p.1 ≠ none) :
    p ∈ (c.engine.resources.step op).2.table.iter := by
  have hother : ∀ {handle : BufferHandle} {entry : ResourceEntry},
      c.engine.resources.table.get handle = .ok entry → ¬c.Own handle →
      p.1 ≠ handle.resourceId := fun _ hnot heq => hnot ⟨p, hp, heq, howned⟩
  obtain ⟨nodeIdx, horigin⟩ := Option.ne_none_iff_exists'.mp howned
  obtain ⟨hidx, howner, hflow⟩ := h.owned p hp nodeIdx horigin
  have hstep := step_cases c.engine.resources op
  generalize (c.engine.resources.step op).1 = reply at hstep
  generalize (c.engine.resources.step op).2 = after at hstep ⊢
  cases hstep with
  | registeredFlow | registeredComponent | refused | exhausted | rolledBack | charged | read =>
      exact hp
  | admitted alloc owner n flowId budgets buffer pools heap id table _ _ _ hins =>
      exact hins.live.mem_iff.mpr (List.mem_cons_of_mem _ hp)
  | dropped handle caller entry table hget _ hremoved =>
      exact hremoved.mem_of_ne hp (hother hget hforeign)
  | moved handle sender recipient entry budgets hget =>
      exact (ResourceTable.Replaced.of_put hget { entry with owner := recipient } rfl).mem_of_ne hp
        (hother hget hforeign)
  | borrowStarted handle borrower entry borrowed hget hok =>
      exact (ResourceTable.Replaced.of_put hget borrowed (borrowStart_same hok).1.generation).mem_of_ne
        hp (hother hget hforeign)
  | borrowEnded handle borrower entry returned hget hok =>
      exact (ResourceTable.Replaced.of_put hget returned (borrowEnd_same hok).1.generation).mem_of_ne
        hp (hother hget hforeign)
  | wrote handle caller offset data flowId entry hget =>
      exact (ResourceTable.Replaced.of_put hget (writtenEntry entry _) rfl).mem_of_ne hp
        (hother hget hforeign)
  | forceReclaimed component hash =>
      obtain ⟨removed, hswept, hremoved, -⟩ := hindexed.forceReclaim_spec component hash
      refine hswept.mem_iff.mpr ⟨hp, fun hgone => hforeign ?_⟩
      have heq := howner.symm.trans ((hremoved p).mp hgone).2
      rw [← OwnerId.component.inj heq]
      exact mem_componentIds hidx
  | flowReclaimed flowId hash | flowReleased flowId hash =>
      obtain ⟨removed, hswept, hremoved, -⟩ := hindexed.reclaimFlow_spec flowId hash
      refine hswept.mem_iff.mpr ⟨hp, fun hgone => hforeign.1 ?_⟩
      rw [← ((hremoved p).mp hgone).2, hflow]

/-- An action of nobody that leaves the stores and the buffers of the pipeline. -/
theorem Instantiating.of_kept (h : Instantiating t c) (hactor : action.actor = none)
    (hstores : (c.engineNext t action).stores = c.engine.stores)
    (hinFlight : (c.engineNext t action).inFlight = c.engine.inFlight)
    (hwellFormed : (c.engineNext t action).resources.table.WellFormed)
    (hkept : ∀ p ∈ c.live, c.origin p.1 ≠ none → p ∈ (c.next t action).live)
    (hcreated : ∀ nodeIdx ∈ c.createdNext action, nodeIdx < t.nodes.length)
    (hgrows : c.created ⊆ c.createdNext action) : Instantiating t (c.next t action) where
  backed := by
    have hclaims : (c.next t action).engine.claims = c.engine.claims := by
      funext holder
      cases holder with
      | wrapper nodeIdx rep =>
          show (((c.engineNext t action).stores nodeIdx).table rep).bind Wrapper.claim = _
          rw [hstores]
          rfl
      | runtime handle =>
          show (if handle ∈ (c.engineNext t action).inFlight then _ else _) = _
          rw [hinFlight]
          rfl
    refine ⟨hwellFormed, hclaims ▸ h.backed.exclusive, fun holder claim hclaim => ?_⟩
    rw [hclaims] at hclaim
    obtain ⟨entry, hmem, hentry⟩ := h.backed.owned hclaim
    refine ⟨entry, hkept _ hmem ?_, hentry⟩
    cases holder with
    | wrapper nodeIdx rep =>
        obtain ⟨wrapper, hrep, hwrapper⟩ := Option.bind_eq_some_iff.mp hclaim
        unfold Wrapper.claim at hwrapper
        split_ifs at hwrapper with hne
        obtain rfl := Option.some.inj hwrapper
        rw [h.named nodeIdx rep wrapper hrep hne]
        exact Option.some_ne_none nodeIdx
    | runtime handle =>
        have hclaim : (if handle ∈ c.engine.inFlight then some ⟨handle, .host⟩ else none) =
          some claim := hclaim
        rw [h.undelivered] at hclaim
        cases hclaim
  undelivered := hinFlight.trans h.undelivered
  created := hcreated
  fresh nodeIdx hnot := by
    show (c.engineNext t action).stores nodeIdx = newStore nodeIdx
    rw [hstores]
    exact h.fresh nodeIdx fun hold => hnot (hgrows hold)
  stores nodeIdx := by
    show ((c.engineNext t action).stores nodeIdx).componentId = _ ∧
      ((c.engineNext t action).stores nodeIdx).flowId = _
    rw [hstores]
    exact h.stores nodeIdx
  named nodeIdx rep wrapper hrep hne := by
    have hrep : ((c.engineNext t action).stores nodeIdx).table rep = some wrapper := hrep
    rw [hstores] at hrep
    obtain ⟨p, hp, heq⟩ := live_of_wrapper h.backed hrep hne
    rw [← heq, origin_next hp, heq]
    exact h.named nodeIdx rep wrapper hrep hne
  owned p hp nodeIdx horigin := by
    by_cases hlive : p.1 ∈ c.live.map Prod.fst
    · obtain ⟨p₀, hp₀, heq⟩ := List.mem_map.mp hlive
      rw [← heq, origin_next hp₀] at horigin
      have hstays := hkept p₀ hp₀ (horigin ▸ Option.some_ne_none nodeIdx)
      -- an id is live once
      obtain rfl := List.inj_on_of_nodup_map
        (c.next t action).engine.resources.table.nodup_iter hstays hp heq
      exact h.owned p₀ hp₀ nodeIdx horigin
    · have hnone : (c.next t action).origin p.1 = none := (if_neg hlive).trans hactor
      rw [hnone] at horigin
      cases horigin

/-- The store of a node is created. -/
theorem Instantiating.createStore (h : Instantiating t c) {nodeIdx : ℕ}
    (hnew : nodeIdx ∉ c.created) (hidx : nodeIdx < t.nodes.length) :
    Instantiating t (c.next t (.createStore nodeIdx)) := by
  have hstores : Function.update c.engine.stores nodeIdx (newStore nodeIdx) = c.engine.stores := by
    rw [← h.fresh nodeIdx hnew]
    exact Function.update_eq_self _ _
  refine h.of_kept rfl hstores rfl h.backed.wellFormed (fun p hp _ => hp) ?_
    (List.subset_append_left _ _)
  intro idx hmem
  rcases List.mem_append.mp hmem with hold | hadded
  · exact h.created idx hold
  · rw [List.mem_singleton.mp hadded]
    exact hidx

/-- Someone else calls the manager. -/
theorem Instantiating.other (h : Instantiating t c) (hindexed : IndexedManager c.engine.resources)
    {op : Op} (hforeign : c.Foreign t op) : Instantiating t (c.next t (.other op)) :=
  h.of_kept rfl rfl rfl (hindexed.step op).wellFormed
    (fun _ hp howned => live_of_foreign hindexed h hforeign hp howned) h.created (List.Subset.refl _)

/-- **A component calls a host function.** -/
theorem Instantiating.call (h : Instantiating t c) (wt : Wasmtime) {nodeIdx : ℕ} (call : HostCall)
    (hmem : nodeIdx ∈ c.created) :
    Instantiating t (c.next t (.event wt (.call nodeIdx call))) where
  backed := h.backed.called (Called.call wt _ call)
  undelivered := h.undelivered
  created := h.created
  fresh other hnot := by
    have hne : other ≠ nodeIdx := fun heq => hnot (heq ▸ hmem)
    show Function.update c.engine.stores nodeIdx _ other = newStore other
    rw [Function.update_of_ne hne]
    exact h.fresh other hnot
  stores other := by
    obtain ⟨hcomponent, hflow⟩ := store_of_event wt (.call nodeIdx call) c.engine other
    exact ⟨hcomponent.trans (h.stores other).1, hflow.trans (h.stores other).2⟩
  named other rep wrapper hrep hne := by
    have hcalled := Called.call wt (c.engine.store nodeIdx) call
    have hold : ∀ {other rep wrapper}, (c.engine.stores other).table rep = some wrapper →
        wrapper.handle ≠ frozenSentinel →
        (c.next t (.event wt (.call nodeIdx call))).origin wrapper.handle.resourceId =
          some other := by
      intro other rep wrapper hrep hne
      obtain ⟨p, hp, heq⟩ := live_of_wrapper h.backed hrep hne
      rw [← heq, origin_next hp, heq]
      exact h.named other rep wrapper hrep hne
    have hrep : (Function.update c.engine.stores nodeIdx
      ((c.engine.store nodeIdx).call wt call).toStore other).table rep = some wrapper := hrep
    by_cases hsame : other = nodeIdx
    · subst hsame
      rw [Function.update_self] at hrep
      rcases named_of_called hcalled hrep hne with ⟨rep₀, wrapper₀, hrep₀, hhandle⟩ | hfresh
      · rw [← hhandle] at hne ⊢
        exact hold hrep₀ hne
      · exact if_neg hfresh
    · rw [Function.update_of_ne hsame] at hrep
      exact hold hrep hne
  owned p hp other horigin := by
    have hcalled := Called.call wt (c.engine.store nodeIdx) call
    rcases live_of_called hcalled hp with ⟨entry, hold, howner, hflow⟩ | ⟨hfresh, hnew⟩
    · have hold : (p.1, entry) ∈ c.live := hold
      rw [origin_next hold] at horigin
      obtain ⟨hidx, howner₀, hflow₀⟩ := h.owned _ hold other horigin
      exact ⟨hidx, howner ▸ howner₀, hflow ▸ hflow₀⟩
    · have hactor : (c.next t (.event wt (.call nodeIdx call))).origin p.1 = some nodeIdx :=
        if_neg hfresh
      obtain rfl := Option.some.inj (hactor.symm.trans horigin)
      refine ⟨h.created nodeIdx hmem, ?_, hnew.flowId.trans (h.stores nodeIdx).2⟩
      rw [hnew.owner, ← (h.stores nodeIdx).1]
      rfl

/-- **What a component holds it goes on holding**, while others act and the flow is not spawned. -/
theorem Instantiating.holds_next (h : Instantiating t c)
    (hindexed : IndexedManager c.engine.resources) (hpossible : c.Possible t action)
    (hphase : (c.next t action).phase = .instantiating) {nodeIdx : ℕ}
    (hactor : action.actor ≠ some nodeIdx) (hholds : c.Holds nodeIdx) :
    (c.next t action).Holds nodeIdx := by
  obtain ⟨p, hp, horigin⟩ := hholds
  have hstays : (∃ p' ∈ (c.next t action).live, p'.1 = p.1) →
      (c.next t action).Holds nodeIdx := by
    rintro ⟨p', hp', heq⟩
    refine ⟨p', hp', ?_⟩
    rw [heq, origin_next hp, horigin]
  cases action with
  | createStore => exact hstays ⟨p, hp, rfl⟩
  | fail | spawnFlow => cases hphase
  | reap hash =>
      obtain ⟨flowId, hrunning⟩ := hpossible
      have hreaped : (c.next t (.reap hash)).phase = .reaped flowId := by
        show c.phaseNext (.reap hash) = _
        simp only [phaseNext, hrunning]
      rw [hreaped] at hphase
      cases hphase
  | other op =>
      exact hstays ⟨p, live_of_foreign hindexed h hpossible hp (horigin ▸ Option.some_ne_none _), rfl⟩
  | event wt event =>
      cases event with
      | call other call =>
          refine hstays (stays_of_called (Called.call wt (c.engine.store other) call) hp ?_)
          intro rep wrapper hrep hne heq
          -- a wrapper names what its own component has allocated
          have hnamed := h.named other rep wrapper hrep hne
          rw [heq, horigin] at hnamed
          exact hactor hnamed.symm
      | marshal | convert | reclaim =>
          obtain ⟨-, flowId, hrunning⟩ := hpossible
          exact absurd (hrunning.symm.trans hphase) (by simp)

/-! ## While the flow runs -/

/-- What a component has allocated carries the id of the flow, or the 0 of the time before. -/
structure Running (flowId : FlowId) (c : PipelineHost) : Prop where
  assigned : flowId ≠ ⟨0⟩
  stores : ∀ nodeIdx, (c.engine.stores nodeIdx).flowId = flowId
  tagged : ∀ p ∈ c.live, c.origin p.1 ≠ none → p.2.flowId = ⟨0⟩ ∨ p.2.flowId = flowId

/-- The flow is spawned. -/
theorem Instantiating.spawn (h : Instantiating t c) {flowId : FlowId} (hflow : flowId ≠ ⟨0⟩) :
    Running flowId (c.next t (.spawnFlow flowId)) where
  assigned := hflow
  stores _ := rfl
  tagged p hp howned := by
    have hp : p ∈ c.live := hp
    rw [origin_next hp] at howned
    obtain ⟨nodeIdx, horigin⟩ := Option.ne_none_iff_exists'.mp howned
    exact .inl (h.owned p hp nodeIdx horigin).2.2

/-- What was live before keeps its flow. -/
theorem Running.of_live {flowId : FlowId} (h : Running flowId c) {p : ResourceId × ResourceEntry}
    {entry : ResourceEntry} (hold : (p.1, entry) ∈ c.live) (hflow : entry.flowId = p.2.flowId)
    (howned : (c.next t action).origin p.1 ≠ none) :
    p.2.flowId = ⟨0⟩ ∨ p.2.flowId = flowId := by
  have heq : (c.next t action).origin p.1 = c.origin p.1 := origin_next (p := (p.1, entry)) hold
  rw [heq] at howned
  rw [← hflow]
  exact h.tagged _ hold howned

theorem Running.event {flowId : FlowId} (h : Running flowId c) (wt : Wasmtime) (event : Event) :
    Running flowId (c.next t (.event wt event)) where
  assigned := h.assigned
  stores nodeIdx := (store_of_event wt event c.engine nodeIdx).2.trans (h.stores nodeIdx)
  tagged p hp howned := by
    rcases live_of_event wt event c.engine hp with ⟨entry, hold, hflow⟩ | ⟨-, nodeIdx, hflow⟩
    · exact h.of_live hold hflow howned
    · exact .inr (hflow.trans (h.stores nodeIdx))

theorem Running.other {flowId : FlowId} (h : Running flowId c) (op : Op) :
    Running flowId (c.next t (.other op)) where
  assigned := h.assigned
  stores := h.stores
  tagged p hp howned := by
    rcases live_of_op c.engine.resources op hp with ⟨entry, hold, hflow⟩ | hfresh
    · exact h.of_live hold hflow howned
    · exact absurd (if_neg hfresh) howned

/-! ## The whole run -/

/-- What holds of the host at any time. -/
structure Tracked (s : StartedManager) (t : PipelineTopology) (c : PipelineHost) : Prop where
  reaches : Reaches s c.engine.resources
  instantiating : c.phase = .instantiating → Instantiating t c
  running : ∀ flowId, c.phase = .running flowId → Running flowId c

theorem Tracked.indexed {s : StartedManager} (h : Tracked s t c) :
    IndexedManager c.engine.resources := by
  obtain ⟨ops, hops⟩ := h.reaches
  rw [hops]
  exact s.indexed_after ops

/-- Every action of anyone is a sequence of operations of the manager. -/
theorem reaches_next {s : StartedManager} (hreaches : Reaches s c.engine.resources)
    (action : Action) : Reaches s (c.next t action).engine.resources := by
  cases action with
  | createStore nodeIdx => exact hreaches.step (.registerComponent (componentIdOf nodeIdx) none)
  | event wt event => exact reaches_event hreaches event
  | fail => exact hreaches
  | spawnFlow flowId => exact hreaches.step (.registerFlow flowId)
  | reap hash =>
      show Reaches s (c.engineNext t (.reap hash)).resources
      cases hphase : c.phase with
      | running flowId =>
          simp only [engineNext, hphase]
          exact hreaches.reclaimFlowResources flowId _ hash
      | instantiating | failed | reaped =>
          simp only [engineNext, hphase]
          exact hreaches
  | other op => exact hreaches.step op

/-- **Every possible action keeps it.** -/
theorem Tracked.next {s : StartedManager} (h : Tracked s t c) (hpossible : c.Possible t action) :
    Tracked s t (c.next t action) := by
  refine ⟨reaches_next h.reaches action, fun hphase => ?_, fun flowId hphase => ?_⟩
  · -- it is still being instantiated
    cases action with
    | createStore nodeIdx => exact (h.instantiating hpossible.1).createStore hpossible.2.1 hpossible.2.2
    | fail | spawnFlow => cases hphase
    | other op => exact (h.instantiating hphase).other h.indexed hpossible
    | event wt event =>
        cases event with
        | call nodeIdx call => exact (h.instantiating hphase).call wt call hpossible.1
        | marshal | convert | reclaim =>
            obtain ⟨-, flowId, hrunning⟩ := hpossible
            exact absurd (hrunning.symm.trans hphase) (by simp)
    | reap hash =>
        obtain ⟨flowId, hrunning⟩ := hpossible
        have hphase : c.phaseNext (.reap hash) = .instantiating := hphase
        simp only [phaseNext, hrunning] at hphase
        cases hphase
  · cases action with
    | createStore =>
        have hrunning : c.phase = .running flowId := hphase
        exact absurd (hpossible.1.symm.trans hrunning) (by simp)
    | fail => cases hphase
    | spawnFlow flowId' =>
        obtain rfl := Phase.running.inj hphase
        exact (h.instantiating hpossible.1).spawn hpossible.2.1
    | other op => exact (h.running flowId hphase).other op
    | event wt event => exact (h.running flowId hphase).event wt event
    | reap hash =>
        obtain ⟨flowId', hrunning⟩ := hpossible
        have hphase : c.phaseNext (.reap hash) = .running flowId := hphase
        simp only [phaseNext, hrunning] at hphase
        cases hphase

/-- Once it is not being instantiated it never is again. -/
theorem instantiating_of_next (h : (c.next t action).phase = .instantiating) :
    c.phase = .instantiating := by
  cases action with
  | createStore | event | other => exact h
  | fail | spawnFlow => cases h
  | reap hash =>
      have hphase : c.phaseNext (.reap hash) = .instantiating := h
      cases hbefore : c.phase with
      | instantiating => rfl
      | failed | running | reaped =>
          simp only [phaseNext, hbefore] at hphase
          cases hphase

theorem instantiating_of_foldl (actions : List Action)
    (h : (actions.foldl (next t) c).phase = .instantiating) : c.phase = .instantiating := by
  induction actions generalizing c with
  | nil => exact h
  | cons action actions ih => exact instantiating_of_next (ih h)

/-- What a component holds after its last call it holds until the instantiation fails. -/
theorem holds_foldl {s : StartedManager} {nodeIdx : ℕ} {actions : List Action}
    (hpossible : Guarded (next t) (Possible t) c actions) (htracked : Tracked s t c)
    (hphase : (actions.foldl (next t) c).phase = .instantiating)
    (hactor : ∀ action ∈ actions, action.actor ≠ some nodeIdx) (hholds : c.Holds nodeIdx) :
    (actions.foldl (next t) c).Holds nodeIdx := by
  induction actions generalizing c with
  | nil => exact hholds
  | cons action actions ih =>
      have hnext : (c.next t action).phase = .instantiating :=
        instantiating_of_foldl actions hphase
      obtain ⟨hactor, hothers⟩ := List.forall_mem_cons.mp hactor
      refine ih hpossible.2 (htracked.next hpossible.1) hphase hothers ?_
      exact (htracked.instantiating (instantiating_of_next hnext)).holds_next htracked.indexed
        hpossible.1 hnext hactor hholds

/-- **What a reap leaves**: the buffers of the pipeline that no component owns and that were
allocated before the flow was spawned. -/
theorem clean_reap_iff {s : StartedManager} (htracked : Tracked s t c) (flowId : FlowId)
    (hphase : c.phase = .running flowId) (hash : HashOrder) :
    (c.next t (.reap hash)).Clean ↔ ∀ p ∈ c.live, c.origin p.1 ≠ none → p.2.flowId = ⟨0⟩ →
      OwnedBy (componentIds t) p.2 := by
  have hrunning := htracked.running flowId hphase
  obtain ⟨owned, hswept₁, hindexed, howned, -, -⟩ := htracked.indexed.reclaimComponents_spec
    ((componentIds t).map fun component => (component, hash))
  obtain ⟨rest, hswept₂, hrest, -⟩ := hindexed.reclaimFlow_spec flowId hash
  have hcomponents : ((componentIds t).map fun component => (component, hash)).map Prod.fst =
      componentIds t := by
    rw [List.map_map]
    exact List.map_id _
  rw [hcomponents] at howned
  have hlive : ∀ p, p ∈ (c.next t (.reap hash)).live ↔
      p ∈ c.live ∧ ¬OwnedBy (componentIds t) p.2 ∧ p.2.flowId ≠ flowId := by
    intro p
    have hengine : (c.next t (.reap hash)).live =
        (c.engine.resources.reclaimFlowResources flowId
          ((componentIds t).map fun component => (component, hash)) hash).2.table.iter := by
      show (c.engineNext t (.reap hash)).resources.table.iter = _
      simp only [engineNext, hphase]
    rw [hengine]
    show p ∈ (ResourceManager.reclaimFlowBuffers flowId hash _).2.table.iter ↔ _
    rw [hswept₂.mem_iff, hrest, hswept₁.mem_iff, howned]
    tauto
  constructor
  · intro hclean p hp horigin hflow
    by_contra hnot
    obtain ⟨nodeIdx, hnode⟩ := Option.ne_none_iff_exists'.mp horigin
    refine hclean nodeIdx ⟨p, (hlive p).mpr ⟨hp, hnot, ?_⟩, ?_⟩
    · rw [hflow]
      exact Ne.symm hrunning.assigned
    · rw [origin_next hp, hnode]
  · rintro hback nodeIdx ⟨p, hleft, horigin⟩
    obtain ⟨hp, hnot, hflow⟩ := (hlive p).mp hleft
    rw [origin_next hp] at horigin
    have hsome : c.origin p.1 ≠ none := horigin ▸ Option.some_ne_none nodeIdx
    rcases hrunning.tagged p hp hsome with hzero | hsame
    · exact hnot (hback p hp hsome hzero)
    · exact hflow hsame

end PipelineHost

namespace PipelineRun

open PipelineHost

/-- At the start nothing has been allocated. -/
theorem tracked_start (ρ : PipelineRun) : Tracked ρ.manager ρ.topology ρ.start where
  reaches := ⟨ρ.ops, rfl⟩
  running flowId hphase := by cases hphase
  instantiating _ :=
    { backed := StartedEngine.backed_start ⟨ρ.manager, ρ.ops, newStore, fun _ _ => rfl⟩
      undelivered := rfl
      created := fun nodeIdx hmem => by cases hmem
      fresh := fun _ _ => rfl
      stores := fun _ => ⟨rfl, rfl⟩
      named := fun nodeIdx rep wrapper hrep => by cases hrep
      owned := fun p _ nodeIdx horigin => by cases horigin }

theorem tracked_stateAfter (ρ : PipelineRun) (before after : List Action)
    (hactions : ρ.actions ++ [ρ.ending.action] = before ++ after) :
    Tracked ρ.manager ρ.topology (ρ.stateAfter before) ∧
      Guarded (next ρ.topology) (Possible ρ.topology) (ρ.stateAfter before) after := by
  have hpossible := ρ.possible
  rw [hactions] at hpossible
  obtain ⟨hbefore, hafter⟩ := Guarded.append_iff.mp hpossible
  exact ⟨hbefore.invariant (fun c action hpossible h => h.next hpossible) ρ.tracked_start, hafter⟩

/-- A component that has not acted holds nothing; one that holds something has held it since its
last call. -/
theorem exists_call_of_holds (ρ : PipelineRun) {nodeIdx : ℕ} (hholds : ρ.last.Holds nodeIdx) :
    ∃ before wt call after, ρ.actions = before ++ .event wt (.call nodeIdx call) :: after ∧
      (∀ action ∈ after, action.actor ≠ some nodeIdx) ∧
      (ρ.stateAfter (before ++ [.event wt (.call nodeIdx call)])).Holds nodeIdx := by
  have hstart : ¬ρ.start.Holds nodeIdx := by
    rintro ⟨p, -, horigin⟩
    cases horigin
  obtain ⟨before, action, after, hactions, hactor, hafter, hlast⟩ :=
    exists_last_of_foldl (P := fun action : Action => action.actor = some nodeIdx)
      (Q := Holds nodeIdx) (fun c action h => holds_of_next h) hstart hholds
  cases action with
  | event wt event =>
      cases event with
      | call other call =>
          obtain rfl := Option.some.inj hactor
          exact ⟨before, wt, call, after, hactions, hafter, hlast⟩
      | marshal | convert | reclaim => cases hactor
  | createStore | fail | spawnFlow | reap | other => cases hactor

/-- Failing changes nothing. -/
theorem holds_fail {t : PipelineTopology} {c : PipelineHost} {nodeIdx : ℕ} :
    (c.next t .fail).Holds nodeIdx ↔ c.Holds nodeIdx := by
  constructor
  · rintro ⟨p, hp, horigin⟩
    have hp : p ∈ c.live := hp
    have hsame : (c.next t .fail).origin p.1 = c.origin p.1 := origin_next hp
    exact ⟨p, hp, hsame.symm.trans horigin⟩
  · rintro ⟨p, hp, horigin⟩
    exact ⟨p, hp, (origin_next hp).trans horigin⟩

/-- **No buffer outlives its flow, exactly when the components have given back what the end does
not reclaim.** -/
theorem no_residue_iff (ρ : PipelineRun) : ρ.final.Clean ↔ ρ.GivenBack := by
  have hfinal : ρ.final = ρ.last.next ρ.topology ρ.ending.action := by
    unfold final last stateAfter
    rw [List.foldl_append]
    rfl
  obtain ⟨htracked, hend, -⟩ := ρ.tracked_stateAfter ρ.actions [ρ.ending.action] rfl
  rw [hfinal]
  unfold GivenBack
  cases hending : ρ.ending with
  | failed =>
      rw [hending] at hend
      have hphase : ρ.last.phase = .instantiating := hend
      constructor
      · rintro hclean nodeIdx before wt call after hactions hafter hholds
        obtain ⟨htracked, hpossible⟩ := ρ.tracked_stateAfter
          (before ++ [.event wt (.call nodeIdx call)]) (after ++ [ρ.ending.action])
          (by rw [hactions]; simp)
        have hlast : after.foldl (next ρ.topology)
            (ρ.stateAfter (before ++ [.event wt (.call nodeIdx call)])) = ρ.last := by
          unfold last stateAfter
          rw [← List.foldl_append, hactions]
          simp
        refine hclean nodeIdx (holds_fail.mpr ?_)
        rw [← hlast]
        exact holds_foldl (Guarded.append_iff.mp hpossible).1 htracked (hlast ▸ hphase) hafter hholds
      · rintro hback nodeIdx hholds
        obtain ⟨before, wt, call, after, hactions, hafter, hlast⟩ :=
          ρ.exists_call_of_holds (holds_fail.mp hholds)
        exact hback nodeIdx before wt call after hactions hafter hlast
  | reaped hash =>
      rw [hending] at hend
      obtain ⟨flowId, hphase⟩ := hend
      exact clean_reap_iff htracked flowId hphase hash

/-! ## Buffers that stay -/

theorem length_pairTopology : pairTopology.nodes.length = 2 := by
  decide

/-- The source allocates a buffer in its `init`, and the sink cannot be instantiated. -/
def failedRun : PipelineRun where
  topology := pairTopology
  manager := startedTwoBuffers
  ops := []
  actions := [.createStore 0, .event StartedEngine.firstFree (.call 0 (.allocate .bump 10))]
  ending := .failed
  possible := by
    refine ⟨⟨rfl, by simp, ?_⟩, ⟨by simp [next, createdNext], .inl rfl⟩, rfl, trivial⟩
    rw [length_pairTopology]
    decide

/-- The source allocates a buffer in its `init` and returns it at the first `pull`; the flow is
cancelled while the buffer is in the queue. -/
noncomputable def queuedRun : PipelineRun where
  topology := pairTopology
  manager := startedTwoBuffers
  ops := []
  actions := [.createStore 0, .event StartedEngine.firstFree (.call 0 (.allocate .bump 10)),
    .event StartedEngine.firstFree (.call 0 (.freeze 0)), .createStore 1, .spawnFlow ⟨1⟩,
    .event StartedEngine.firstFree (.convert 0 ⟨⟨0, 0, ""⟩, 1⟩)]
  ending := .reaped default
  possible := by
    have hall : ∀ nodeIdx < pairTopology.nodes.length, nodeIdx ∈ [0, 1] := by
      rw [length_pairTopology]
      decide
    refine ⟨⟨rfl, by simp, ?_⟩, ⟨by simp [next, createdNext], .inl rfl⟩,
      ⟨by simp [next, createdNext], .inl rfl⟩, ⟨rfl, by simp [next, createdNext], ?_⟩,
      ⟨rfl, by decide, hall⟩, ⟨by simp [next, createdNext], ⟨1⟩, rfl⟩, ⟨⟨1⟩, rfl⟩, trivial⟩
    all_goals
      rw [length_pairTopology]
      decide

set_option maxRecDepth 100000 in
theorem queuedRun_host : ∃ p ∈ queuedRun.last.live, queuedRun.last.origin p.1 = some 0 ∧
    p.2.flowId = ⟨0⟩ ∧ p.2.owner = .host := by
  decide

/-- The buffer of the first run is live when the instantiation has failed; that of the second
belongs to the host, under the id 0, and is live when the flow has been reaped. -/
theorem residue_left : failedRun.final.Holds 0 ∧ ¬failedRun.final.Clean ∧
    ¬queuedRun.final.Clean := by
  have hfailed : ∃ p ∈ failedRun.final.live, failedRun.final.origin p.1 = some 0 := by
    decide
  refine ⟨hfailed, fun hclean => hclean 0 hfailed, fun hclean => ?_⟩
  obtain ⟨p, hp, horigin, hflow, howner⟩ := queuedRun_host
  have htracked := (queuedRun.tracked_stateAfter queuedRun.actions _ rfl).1
  have hreap : queuedRun.final = queuedRun.last.next pairTopology (.reap default) := rfl
  rw [hreap] at hclean
  have hback := (clean_reap_iff htracked ⟨1⟩ rfl default).mp hclean p hp
    (horigin ▸ Option.some_ne_none 0) hflow
  obtain ⟨component, -, hcomponent⟩ := hback
  rw [howner] at hcomponent
  cases hcomponent

end PipelineRun

end Torvyn.Pipeline.Residue
