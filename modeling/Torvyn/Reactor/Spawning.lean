/-
# Starting a flow

What the coordinator makes of a `SpawnFlow` command, for any configuration and any number of
instances.  Validation, the count of the instances and the state of the coordinator lead to
replies; what they let through has its streams built in the coordinator's own task, where a
queue that cannot be made is a panic.  A start is *isolated* when it adds one flow under a
new id, or leaves everything as it is (`isolated_iff`).

How many slots the host can reserve is read from outside: `room` says for which capacities
`Vec::with_capacity` returns.
-/
import Torvyn.Reactor.Tasks

namespace Torvyn.Reactor

/-! ## The streams of a configuration -/

/-- The capacity that the stream of a connection is given. -/
def FlowConfig.capacityOf (config : FlowConfig) (conn : StreamConnection) : UInt64 :=
  conn.config.capacity.getD config.defaultQueueCapacity

/-- A stream is the empty stream of a connection. -/
structure Serves (flowId : FlowId) (config : FlowConfig) (conn : StreamConnection) (idx : ℕ)
    (s : StreamState) : Prop where
  id : s.id = ⟨idx⟩
  flowId : s.flowId = flowId
  capacity : s.queue.capacity = (config.capacityOf conn).toNat
  empty : s.queue.len = 0
  policy : s.backpressurePolicy =
    conn.config.backpressurePolicy.getD config.defaultBackpressurePolicy
  ends : ∃ producer consumer, config.topology.stages[conn.fromStage]? = some producer ∧
    config.topology.stages[conn.toStage]? = some consumer ∧
    s.producer = producer.componentId ∧ s.consumer = consumer.componentId

section Streams

variable {flowId : FlowId} {config : FlowConfig}

theorem serves_of_spawnStream {idx : ℕ} {conn : StreamConnection} {s : StreamState}
    (h : spawnStream flowId config idx conn = some s) : Serves flowId config conn idx s := by
  obtain ⟨producer, hproducer, h⟩ := Option.bind_eq_some_iff.mp h
  obtain ⟨consumer, hconsumer, h⟩ := Option.bind_eq_some_iff.mp h
  obtain ⟨queue, hqueue, rfl⟩ := Option.map_eq_some_iff.mp h
  unfold BoundedQueue.new at hqueue
  split at hqueue
  · obtain rfl := Option.some.inj hqueue
    exact ⟨rfl, rfl, rfl, rfl, rfl, producer, consumer, hproducer, hconsumer, rfl, rfl⟩
  · cases hqueue

/-- Between stages of the topology there is a stream exactly with a positive capacity. -/
theorem exists_spawnStream_iff {idx : ℕ} {conn : StreamConnection}
    (hfrom : conn.fromStage < config.topology.stages.length)
    (hto : conn.toStage < config.topology.stages.length) :
    (∃ s, spawnStream flowId config idx conn = some s) ↔ 0 < config.capacityOf conn := by
  have hpos : 0 < config.capacityOf conn ↔ 0 < (config.capacityOf conn).toNat := UInt64.lt_iff_toNat_lt
  rw [hpos]
  constructor
  · rintro ⟨s, hs⟩
    rw [← (serves_of_spawnStream hs).capacity]
    exact s.queue.capacity_pos
  · intro hcapacity
    unfold spawnStream StreamState.new BoundedQueue.new
    rw [List.getElem?_eq_getElem hfrom, List.getElem?_eq_getElem hto, Option.bind_some,
      Option.bind_some]
    unfold FlowConfig.capacityOf at hcapacity
    rw [dif_pos hcapacity]
    exact ⟨_, rfl⟩

theorem exists_spawnStreamsFrom_iff {conns : List StreamConnection} (idx : ℕ)
    (hbounds : ∀ conn ∈ conns, conn.fromStage < config.topology.stages.length ∧
      conn.toStage < config.topology.stages.length) :
    (∃ streams, spawnStreamsFrom flowId config idx conns = some streams) ↔
      ∀ conn ∈ conns, 0 < config.capacityOf conn := by
  induction conns generalizing idx with
  | nil => exact iff_of_true ⟨[], rfl⟩ fun conn h => absurd h List.not_mem_nil
  | cons conn conns ih =>
      obtain ⟨hfrom, hto⟩ := hbounds conn List.mem_cons_self
      have hrest := ih (idx + 1) fun c hc => hbounds c (List.mem_cons_of_mem _ hc)
      rw [List.forall_mem_cons, ← hrest, ← exists_spawnStream_iff hfrom hto]
      constructor
      · rintro ⟨streams, h⟩
        obtain ⟨s, hs, h⟩ := Option.bind_eq_some_iff.mp h
        obtain ⟨rest, hsome, -⟩ := Option.map_eq_some_iff.mp h
        exact ⟨⟨s, hs⟩, rest, hsome⟩
      · rintro ⟨⟨s, hs⟩, rest, hsome⟩
        refine ⟨s :: rest, ?_⟩
        rw [spawnStreamsFrom, hs, hsome]
        rfl

theorem spawnStreamsFrom_serves {conns : List StreamConnection} {streams : List StreamState}
    {idx : ℕ} (h : spawnStreamsFrom flowId config idx conns = some streams) :
    streams.length = conns.length ∧ ∀ (i : ℕ) (conn : StreamConnection) (s : StreamState),
      conns[i]? = some conn → streams[i]? = some s → Serves flowId config conn (idx + i) s := by
  induction conns generalizing idx streams with
  | nil =>
      obtain rfl := Option.some.inj h
      exact ⟨rfl, by simp⟩
  | cons conn conns ih =>
      obtain ⟨first, hfirst, h⟩ := Option.bind_eq_some_iff.mp h
      obtain ⟨rest, hsome, rfl⟩ := Option.map_eq_some_iff.mp h
      obtain ⟨hlength, hserves⟩ := ih hsome
      refine ⟨by rw [List.length_cons, List.length_cons, hlength], fun i c s hc hs => ?_⟩
      cases i with
      | zero =>
          obtain rfl := Option.some.inj hc
          obtain rfl := Option.some.inj hs
          exact serves_of_spawnStream hfirst
      | succ i =>
          have hnext := hserves i c s hc hs
          rwa [Nat.add_assoc, Nat.add_comm 1 i] at hnext

end Streams

namespace Coordinator

/-! ## The command -/

/-- `spawn_flow_with_instances` on a host that can reserve the slots of some queues only: a
queue that is too large stops the coordinator like one without capacity. -/
def spawnFlowIn (room : UInt64 → Bool) (c : Coordinator) (config : FlowConfig) (instances : ℕ) :
    Option (Except FlowCreationError FlowId × Coordinator) :=
  match c.spawnFlowWithInstances config instances with
  | some (.ok flowId, c') =>
      if config.topology.connections.all fun conn => room (config.capacityOf conn) then
        some (.ok flowId, c')
      else none
  | result => result

/-- The command `SpawnFlow`: the reply and the coordinator after it, or a panic. -/
def handleSpawnFlow (room : UInt64 → Bool) (c : Coordinator) (config : FlowConfig)
    (instances : ℕ) : Option (Except FlowCreationError FlowId × Coordinator) :=
  if c.shuttingDown then some (.error .reactorShuttingDown, c)
  else c.spawnFlowIn room config instances

/-- With room for all queues the command is handled as the coordinator handles it. -/
theorem handleCommand_spawnFlow (c : Coordinator) (config : FlowConfig) (instances : ℕ) :
    c.handleCommand (.spawnFlow config instances) =
      (c.handleSpawnFlow (fun _ => true) config instances).map fun (result, c) =>
        (.created result, c) := by
  unfold handleCommand handleSpawnFlow spawnFlowIn
  simp only [List.all_eq_true, implies_true, if_true]
  split
  · rfl
  · congr 1
    split <;> simp_all

/-! ## Isolation -/

/-- One new flow, under an id that nothing has been known by, with a stream for each
connection; the other flows and what is kept of past ones are unchanged. -/
structure Added (c : Coordinator) (config : FlowConfig) (flowId : FlowId) (c' : Coordinator) :
    Prop where
  unknown : ∀ task, ¬ c.Known flowId task
  noFlow : flowId ∉ c.flows
  noOutcome : flowId ∉ c.outcomes
  flows : ∃ streams : List StreamState, c'.flows = c.flows.insert flowId
      ⟨⟨flowId, .instantiated⟩, .unstarted flowId config streams .new,
        config.topology.stages.map (·.componentId)⟩ ∧
    streams.length = config.topology.connections.length ∧
    ∀ (i : ℕ) (conn : StreamConnection) (s : StreamState),
      config.topology.connections[i]? = some conn → streams[i]? = some s →
        Serves flowId config conn i s
  outcomes : c'.outcomes = c.outcomes
  resources : c'.resources = c.resources.registerFlow flowId

/-- The command is answered, and a flow is added or nothing has changed. -/
def Isolated (room : UInt64 → Bool) (c : Coordinator) (config : FlowConfig) (instances : ℕ) :
    Prop :=
  (∃ flowId c', c.handleSpawnFlow room config instances = some (.ok flowId, c') ∧
    c.Added config flowId c') ∨
  ∃ e c', c.handleSpawnFlow room config instances = some (.error e, c') ∧
    c'.flows = c.flows ∧ c'.outcomes = c.outcomes ∧ c'.resources = c.resources

variable {c : Coordinator} {config : FlowConfig} {instances : ℕ}

/-- What passes the checks is started when each of its queues can be made. -/
theorem spawnFlowWithInstances_of_valid (hvalid : config.topology.validate = .ok ())
    (hcount : instances = config.topology.stages.length) :
    c.spawnFlowWithInstances config instances = (spawnStreams ⟨c.nextFlowId⟩ config).map
      fun streams => (.ok ⟨c.nextFlowId⟩, { c with
        resources := c.resources.registerFlow ⟨c.nextFlowId⟩ }.register config
          (.unstarted ⟨c.nextFlowId⟩ config streams .new)) := by
  unfold spawnFlowWithInstances
  rw [hvalid]
  simp only [hcount, ne_eq, not_true_eq_false, if_false]

/-- What does not pass the checks is answered with an error, and nothing has changed. -/
theorem spawnFlowWithInstances_of_invalid (h : ¬ (config.topology.validate = .ok () ∧
    instances = config.topology.stages.length)) :
    ∃ e, c.spawnFlowWithInstances config instances = some (.error e, c) := by
  unfold spawnFlowWithInstances
  cases hvalid : config.topology.validate with
  | error e => exact ⟨e, rfl⟩
  | ok u =>
      have hcount : instances ≠ config.topology.stages.length := fun hcount => h ⟨hvalid, hcount⟩
      simp only [if_pos hcount]
      exact ⟨_, rfl⟩

/-- The next id is new to a reachable coordinator. -/
theorem Tracked.unknown_next (h : Tracked c) : (∀ task, ¬ c.Known ⟨c.nextFlowId⟩ task) ∧
    (⟨c.nextFlowId⟩ : FlowId) ∉ c.flows ∧ (⟨c.nextFlowId⟩ : FlowId) ∉ c.outcomes := by
  have hunknown : ∀ task, ¬ c.Known ⟨c.nextFlowId⟩ task :=
    fun task hknown => Nat.lt_irrefl _ (h.known_lt hknown)
  refine ⟨hunknown, fun hmem => ?_, fun hmem => ?_⟩
  · obtain ⟨entry, hlive⟩ := KeyMap.mem_iff_exists.mp hmem
    exact hunknown entry.task (.inl ⟨entry, hlive, rfl⟩)
  · obtain ⟨outcome, hkept⟩ := KeyMap.mem_iff_exists.mp hmem
    obtain ⟨task, -, hreaped, -⟩ := h.kept hkept
    exact hunknown task (.inr hreaped)

theorem Tracked.added (h : Tracked c) {streams : List StreamState}
    (hstreams : spawnStreams ⟨c.nextFlowId⟩ config = some streams) :
    c.Added config ⟨c.nextFlowId⟩ ({ c with
      resources := c.resources.registerFlow ⟨c.nextFlowId⟩ }.register config
        (.unstarted ⟨c.nextFlowId⟩ config streams .new)) := by
  obtain ⟨hunknown, hflow, houtcome⟩ := h.unknown_next
  obtain ⟨hlength, hserves⟩ := spawnStreamsFrom_serves hstreams
  refine ⟨hunknown, hflow, houtcome, ⟨streams, rfl, hlength, fun i conn s hc hs => ?_⟩, rfl, rfl⟩
  have hserve := hserves i conn s hc hs
  rwa [Nat.zero_add] at hserve

end Coordinator

open Coordinator in
/-- **When starting a flow is isolated.**  In every state that the coordinator reaches, the
command is answered with one new flow or with nothing changed, unless it passes all checks
and some connection asks for a queue without capacity, or for more slots than the host can
reserve: then the coordinator panics. -/
theorem isolated_iff (ρ : CoordinatorRun) (room : UInt64 → Bool) (config : FlowConfig)
    (instances : ℕ) :
    ρ.final.Isolated room config instances ↔
      (ρ.final.shuttingDown = false → config.topology.validate = .ok () →
        instances = config.topology.stages.length → ∀ conn ∈ config.topology.connections,
          0 < config.capacityOf conn ∧ room (config.capacityOf conn) = true) := by
  have htracked := ρ.tracked
  generalize ρ.final = c at htracked
  by_cases hdown : c.shuttingDown = true
  · refine iff_of_true (.inr ⟨.reactorShuttingDown, c, if_pos hdown, rfl, rfl, rfl⟩) fun h => ?_
    rw [hdown] at h
    cases h
  have hhandle : c.handleSpawnFlow room config instances = c.spawnFlowIn room config instances :=
    if_neg hdown
  rw [Bool.not_eq_true] at hdown
  by_cases hchecks : config.topology.validate = .ok () ∧ instances = config.topology.stages.length
  · obtain ⟨hvalid, hcount⟩ := hchecks
    have hbounds := ((FlowTopology.validate_eq_ok_iff _).mp hvalid).bounds
    have hspawn := spawnFlowWithInstances_of_valid (c := c) hvalid hcount
    have hstreams : (∃ streams, spawnStreams ⟨c.nextFlowId⟩ config = some streams) ↔
        ∀ conn ∈ config.topology.connections, 0 < config.capacityOf conn :=
      exists_spawnStreamsFrom_iff 0 hbounds
    have hneeds : (∀ conn ∈ config.topology.connections,
        0 < config.capacityOf conn ∧ room (config.capacityOf conn) = true) ↔
          (∃ streams, spawnStreams ⟨c.nextFlowId⟩ config = some streams) ∧
            config.topology.connections.all (fun conn => room (config.capacityOf conn)) = true := by
      rw [hstreams, List.all_eq_true, forall₂_and]
    simp only [hdown, hvalid, hcount, forall_const]
    rw [hneeds]
    unfold Isolated
    rw [← hcount, hhandle]
    unfold spawnFlowIn
    rw [hspawn]
    cases hsome : spawnStreams ⟨c.nextFlowId⟩ config with
    | none => simp
    | some streams =>
        by_cases hroom :
            config.topology.connections.all (fun conn => room (config.capacityOf conn)) = true
        · refine iff_of_true (.inl ⟨_, _, ?_, htracked.added hsome⟩) ⟨⟨streams, rfl⟩, hroom⟩
          simp only [Option.map_some, if_pos hroom]
        · simp [hroom]
  · obtain ⟨e, hspawn⟩ := spawnFlowWithInstances_of_invalid (c := c) hchecks
    refine iff_of_true (.inr ⟨e, c, ?_, rfl, rfl, rfl⟩) fun _ hvalid hcount =>
      absurd ⟨hvalid, hcount⟩ hchecks
    rw [hhandle, spawnFlowIn, hspawn]

/-- A running flow, and then the start of a flow whose only stream has no capacity: the
coordinator panics, and the running flow with it. -/
theorem spawn_without_capacity_panics :
    ∃ (ρ : CoordinatorRun) (entry : FlowEntry) (config : FlowConfig),
      ρ.final.flows.lookup ⟨1⟩ = some entry ∧ config.topology.validate = .ok () ∧
        ρ.final.handleSpawnFlow (fun _ => true) config 2 = none ∧
        ¬ ρ.final.Isolated (fun _ => true) config 2 := by
  let actions : List Coordinator.Action :=
    [.command (.spawnFlow (smallConfig [.source, .sink] [(0, 1)] 1) 2) [] default]
  let ρ : CoordinatorRun := ⟨bareManager, actions,
    ((Coordinator.new bareManager).run actions).get (by decide), (Option.some_get _).symm⟩
  have hpanic : ρ.final.handleSpawnFlow (fun _ => true)
      (smallConfig [.source, .sink] [(0, 1)] 0) 2 = none := rfl
  refine ⟨ρ, _, smallConfig [.source, .sink] [(0, 1)] 0, rfl, rfl, hpanic, ?_⟩
  rintro (⟨flowId, c', h, -⟩ | ⟨e, c', h, -⟩)
  · rw [hpanic] at h
    cases h
  · rw [hpanic] at h
    cases h

end Torvyn.Reactor
