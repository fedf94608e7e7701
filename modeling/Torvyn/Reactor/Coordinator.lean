/-
# The reactor coordinator

`ReactorCoordinator` of `torvyn-reactor/src/coordinator.rs`, with the tasks of the flows it has
started.  A step is one turn of its loop, one pass of the wait for a shutdown, or progress of a
flow's task in between.  The order in which a pass meets the flows is that of a hash map, and is
read from outside.

A handle and its driver share one cancellation token; it is kept with the task.  A command that
cancels a flow while a round of its driver is under way is part of that round.
-/
import Torvyn.Data.KeyMap
import Torvyn.Reactor.Termination
import Torvyn.Resources.Terminal

namespace Torvyn.Reactor

/-! ## Flows -/

/-- How a flow ended, and why. -/
structure FlowOutcome where
  state : FlowState
  reason : Option CancellationReason
  deriving DecidableEq, Repr

/-- The task of a flow.  One that has been spawned builds its driver when it first runs; a
created flow has a stub in its place. -/
inductive FlowTask where
  | unstarted (flowId : FlowId) (config : FlowConfig) (streams : List StreamState)
      (cancellation : FlowCancellation)
  | driver (d : FlowDriver)
  | panicked (d : FlowDriver) (message : String)
  | stub (cancellation : FlowCancellation)

namespace FlowTask

/-- The token of the flow. -/
def cancellation : FlowTask → FlowCancellation
  | .unstarted _ _ _ cancellation => cancellation
  | .driver d => d.cancellation
  | .panicked d _ => d.cancellation
  | .stub cancellation => cancellation

/-- Cancel the flow. -/
def cancel (reason : CancellationReason) : FlowTask → FlowTask
  | .unstarted flowId config streams cancellation =>
      .unstarted flowId config streams (cancellation.cancel reason)
  | .driver d => .driver (d.withCancellation (d.cancellation.cancel reason))
  | .panicked d message => .panicked (d.withCancellation (d.cancellation.cancel reason)) message
  | .stub cancellation => .stub (cancellation.cancel reason)

/-- What the join handle of a finished task gives: the terminal state, or why the task
panicked. -/
def result : FlowTask → Option (Except String FlowState)
  | .unstarted _ _ _ _ => none
  | .driver d => if d.state.isTerminal then some (.ok d.state) else none
  | .panicked _ message => some (.error message)
  | .stub _ => some (.ok .completed)

/-- Whether the task has finished. -/
def isFinished (task : FlowTask) : Bool := task.result.isSome

/-- The outcome that is kept of a task with the given result. -/
def outcomeOf (task : FlowTask) : Except String FlowState → FlowOutcome
  | .ok state => ⟨state, task.cancellation.reason⟩
  | .error message =>
      ⟨.failed, some (.downstreamError ⟨0⟩
        (.internal s!"the flow driver task panicked: {message}"))⟩

end FlowTask

/-- `FlowDriverHandle`, apart from the token. -/
structure FlowDriverHandle where
  flowId : FlowId
  state : FlowState

/-- A managed flow. -/
structure FlowEntry where
  handle : FlowDriverHandle
  task : FlowTask
  componentIds : List ComponentId

/-! ## The coordinator -/

/-- What happens to the flows, in the order in which it happens. -/
inductive CoordinatorEvent where
  | cancelCalled (flowId : FlowId) (reason : CancellationReason)
  | reaped (flowId : FlowId) (task : FlowTask)
  | evicted (flowId : FlowId)

/-- The coordinator.  The last field is the record of what has happened. -/
structure Coordinator where
  flows : KeyMap FlowId FlowEntry
  nextFlowId : ℕ
  resources : ResourceManager
  outcomes : KeyMap FlowId FlowOutcome
  shuttingDown : Bool
  log : List CoordinatorEvent

/-- `MAX_RETAINED_OUTCOMES`. -/
def maxRetainedOutcomes : ℕ := 64

/-- The first key of an ordered map. -/
def leastKey (outcomes : KeyMap FlowId FlowOutcome) : Option FlowId :=
  (outcomes.keys.map FlowId.id).min?.map FlowId.mk

/-- The commands. -/
inductive ReactorCommand where
  | createFlow (config : FlowConfig)
  | cancelFlow (flowId : FlowId) (reason : CancellationReason)
  | queryFlowState (flowId : FlowId)
  | queryFlowOutcome (flowId : FlowId)
  | listFlows
  | updatePriority (flowId : FlowId) (priority : FlowPriority)
  | spawnFlow (config : FlowConfig) (instances : ℕ)

/-- The replies.  An internal flow error is given by its message. -/
inductive ReactorReply where
  | created (result : Except FlowCreationError FlowId)
  | cancelled (result : Except String Unit)
  | state (result : Except String FlowState)
  | outcome (outcome : Option FlowOutcome)
  | flows (flows : List (FlowId × FlowState))
  | priority (result : Except String Unit)

/-- The result of a shutdown. -/
structure ShutdownResult where
  completed : ℕ
  cancelled : ℕ
  timedOut : ℕ
  deriving DecidableEq, Repr

namespace Coordinator

/-- `ReactorCoordinator::new`. -/
def new (resources : ResourceManager) : Coordinator := ⟨∅, 1, resources, ∅, false, []⟩

/-- Append to the record of what has happened. -/
def record (c : Coordinator) (events : List CoordinatorEvent) : Coordinator :=
  { c with log := c.log ++ events }

/-! ## Starting flows -/

/-- Register a new flow under the next id. -/
def register (c : Coordinator) (config : FlowConfig) (task : FlowTask) : Coordinator :=
  let flowId : FlowId := ⟨c.nextFlowId⟩
  { c with
    nextFlowId := c.nextFlowId + 1
    flows := c.flows.insert flowId
      ⟨⟨flowId, .instantiated⟩, task, config.topology.stages.map (·.componentId)⟩ }

/-- `spawn_flow_with_instances`, given the number of instances.  A stream without capacity
panics, and takes the task of the coordinator with it. -/
def spawnFlowWithInstances (c : Coordinator) (config : FlowConfig) (instances : ℕ) :
    Option (Except FlowCreationError FlowId × Coordinator) :=
  match config.topology.validate with
  | .error e => some (.error e, c)
  | .ok () =>
      let stageCount := config.topology.stages.length
      if instances ≠ stageCount then
        some (.error (.invalidTopology (s!"instance count ({instances}) does not match " ++
          s!"topology stage count ({stageCount})")), c)
      else
        let flowId : FlowId := ⟨c.nextFlowId⟩
        let c := { c with resources := c.resources.registerFlow flowId }
        (spawnStreams flowId config).map fun streams =>
          (.ok flowId, c.register config (.unstarted flowId config streams .new))

/-- `create_flow`: the streams are built and dropped, and a stub stands for the driver. -/
def createFlow (c : Coordinator) (config : FlowConfig) :
    Option (Except FlowCreationError FlowId × Coordinator) :=
  match config.topology.validate with
  | .error e => some (.error e, c)
  | .ok () =>
      let flowId : FlowId := ⟨c.nextFlowId⟩
      (spawnStreams flowId config).map fun _ => (.ok flowId, c.register config (.stub .new))

/-! ## Cancelling and asking -/

/-- What the coordinator says of a flow that it does not know. -/
def notFound (flowId : FlowId) : String := s!"flow {flowId} not found"

/-- Call `cancel` on the token of a live flow. -/
def cancelEntry (reason : CancellationReason) (entry : FlowEntry) : FlowEntry :=
  { entry with task := entry.task.cancel reason }

/-- `cancel_flow`. -/
def cancelFlow (c : Coordinator) (flowId : FlowId) (reason : CancellationReason) :
    Except String Unit × Coordinator :=
  match c.flows.lookup flowId with
  | some _ =>
      (.ok (), { c with flows := c.flows.modify flowId (cancelEntry reason) }.record
        [.cancelCalled flowId reason])
  | none => (.error (notFound flowId), c)

/-- The state of a live flow, as the coordinator knows it. -/
def queryFlowState (c : Coordinator) (flowId : FlowId) : Except String FlowState :=
  match c.flows.lookup flowId with
  | some entry => .ok entry.handle.state
  | none => .error (notFound flowId)

/-- How a flow ended; of a live flow, its state and the reason it has been cancelled for. -/
def queryFlowOutcome (c : Coordinator) (flowId : FlowId) : Option FlowOutcome :=
  match c.flows.lookup flowId with
  | some entry => some ⟨entry.handle.state, entry.task.cancellation.reason⟩
  | none => c.outcomes.lookup flowId

/-- The live flows. -/
def listFlows (c : Coordinator) : List (FlowId × FlowState) :=
  c.flows.entries.map fun e => (e.1, e.2.handle.state)

/-- `handle_command`, except for a shutdown. -/
def handleCommand (c : Coordinator) : ReactorCommand → Option (ReactorReply × Coordinator)
  | .createFlow config =>
      if c.shuttingDown then some (.created (.error .reactorShuttingDown), c)
      else (c.createFlow config).map fun (result, c) => (.created result, c)
  | .cancelFlow flowId reason =>
      let (result, c) := c.cancelFlow flowId reason
      some (.cancelled result, c)
  | .queryFlowState flowId => some (.state (c.queryFlowState flowId), c)
  | .queryFlowOutcome flowId => some (.outcome (c.queryFlowOutcome flowId), c)
  | .listFlows => some (.flows c.listFlows, c)
  | .updatePriority _ _ =>
      some (.priority (.error "dynamic priority update not yet implemented"), c)
  | .spawnFlow config instances =>
      if c.shuttingDown then some (.created (.error .reactorShuttingDown), c)
      else (c.spawnFlowWithInstances config instances).map fun (result, c) => (.created result, c)

/-! ## Reaping -/

/-- The loop of `retain_outcome`: while there are too many outcomes, the one with the lowest key
goes.  Each round removes one, so as many rounds as there are outcomes suffice. -/
def evict : ℕ → Coordinator → Coordinator
  | 0, c => c
  | n + 1, c =>
      if c.outcomes.keys.length > maxRetainedOutcomes then
        match leastKey c.outcomes with
        | none => c
        | some oldest =>
            evict n ({ c with outcomes := c.outcomes.erase oldest }.record [.evicted oldest])
      else c

/-- `retain_outcome`. -/
def retainOutcome (c : Coordinator) (flowId : FlowId) (outcome : FlowOutcome) : Coordinator :=
  let c := { c with outcomes := c.outcomes.insert flowId outcome }
  evict c.outcomes.keys.length c

/-- The body of the loop of `reap_completed_flows`, for a flow whose task has finished. -/
def reapFlow (hash : HashOrder) (c : Coordinator) (flowId : FlowId) : Coordinator :=
  match c.flows.lookup flowId with
  | none => c
  | some entry =>
      match entry.task.result with
      | none => c
      | some result =>
          let c := { c with flows := c.flows.erase flowId }.record [.reaped flowId entry.task]
          let c := c.retainOutcome flowId (entry.task.outcomeOf result)
          { c with
            resources := (ResourceManager.reclaimFlowResources flowId
              (entry.componentIds.map fun component => (component, hash)) hash c.resources).2 }

/-- The flows that a pass finds finished, in the order in which it meets them. -/
def completedIds (c : Coordinator) (order : List FlowId) : List FlowId :=
  order.filter fun flowId => (c.flows.lookup flowId).any (·.task.isFinished)

/-- `reap_completed_flows`. -/
def reapCompletedFlows (c : Coordinator) (order : List FlowId) (hash : HashOrder) : Coordinator :=
  (c.completedIds order).foldl (reapFlow hash) c

/-! ## Shutting down -/

/-- The beginning of `shutdown`: every live flow is cancelled. -/
def beginShutdown (c : Coordinator) : Coordinator :=
  { c with
    shuttingDown := true
    flows := c.flows.mapValues (cancelEntry .operatorRequest) }.record
      (c.flows.keys.map fun flowId => .cancelCalled flowId .operatorRequest)

/-- What `shutdown` returns when its wait is over. -/
def shutdownResult (c : Coordinator) : ShutdownResult := ⟨0, 0, c.flows.keys.length⟩

/-! ## The tasks of the flows -/

/-- Replace the task of a flow. -/
def withTask (c : Coordinator) (flowId : FlowId) (task : FlowTask) : Coordinator :=
  { c with flows := c.flows.modify flowId fun entry => { entry with task := task } }

/-- A spawned task runs for the first time: it builds its driver, which enters its main loop. -/
def beginTask (c : Coordinator) (flowId : FlowId) (now wallClock : ℕ) : Coordinator :=
  match c.flows.lookup flowId with
  | some ⟨_, .unstarted flowId' config streams cancellation, _⟩ =>
      c.withTask flowId (.driver (((FlowDriver.new flowId' config streams now).enterRunning now
        wallClock).withCancellation cancellation))
  | _ => c

/-- The driver of a flow executes a round. -/
def roundOf (c : Coordinator) (flowId : FlowId) (r : Round) : Coordinator :=
  match c.flows.lookup flowId with
  | some ⟨_, .driver d, _⟩ =>
      (c.withTask flowId (.driver (d.step r))).record
        ((d.cancelCalls r).map (.cancelCalled flowId))
  | _ => c

/-- The driver of a flow panics before it has ended. -/
def panicTask (c : Coordinator) (flowId : FlowId) (message : String) : Coordinator :=
  match c.flows.lookup flowId with
  | some ⟨_, .driver d, _⟩ =>
      if d.state.isTerminal then c else c.withTask flowId (.panicked d message)
  | _ => c

/-! ## Runs -/

/-- What can happen next. -/
inductive Action where
  /-- one turn of the loop: a command, and the pass after it -/
  | command (command : ReactorCommand) (order : List FlowId) (hash : HashOrder)
  | beginShutdown
  /-- one pass of the wait for a shutdown, or the pass after it -/
  | pass (order : List FlowId) (hash : HashOrder)
  | beginTask (flowId : FlowId) (now wallClock : ℕ)
  | round (flowId : FlowId) (r : Round)
  | panic (flowId : FlowId) (message : String)
  /-- the components and the host use the shared resource manager -/
  | resource (op : ResourceManager.Op)

/-- One action, unless the coordinator panics. -/
def step (c : Coordinator) : Action → Option Coordinator
  | .command command order hash =>
      (c.handleCommand command).map fun (_, c) => c.reapCompletedFlows order hash
  | .beginShutdown => some c.beginShutdown
  | .pass order hash => some (c.reapCompletedFlows order hash)
  | .beginTask flowId now wallClock => some (c.beginTask flowId now wallClock)
  | .round flowId r => some (c.roundOf flowId r)
  | .panic flowId message => some (c.panicTask flowId message)
  | .resource op => some { c with resources := (c.resources.step op).2 }

/-- A sequence of actions. -/
def run (c : Coordinator) : List Action → Option Coordinator
  | [] => some c
  | action :: actions => (c.step action).bind fun c => c.run actions

theorem run_append (c : Coordinator) (actions more : List Action) :
    c.run (actions ++ more) = (c.run actions).bind fun c => c.run more := by
  induction actions generalizing c with
  | nil => rfl
  | cons action actions ih =>
      show ((c.step action).bind fun c => c.run (actions ++ more)) = _
      rw [funext ih]
      exact (Option.bind_assoc _ _ _).symm

end Coordinator

/-- A run of the coordinator, from its start. -/
structure CoordinatorRun where
  resources : ResourceManager
  actions : List Coordinator.Action
  final : Coordinator
  reached : (Coordinator.new resources).run actions = some final

/-- A manager without pooled buffers. -/
def bareManager : ResourceManager :=
  (ResourceManager.new .bump ⟨1, fun tier => ⟨tier, 0, false⟩, 0⟩).get (by decide)

end Torvyn.Reactor
