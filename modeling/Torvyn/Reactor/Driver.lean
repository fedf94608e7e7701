/-
# The flow driver

`FlowDriver` of `torvyn-reactor/src/flow_driver.rs`.  A run is a sequence of rounds.
One round is one iteration of the main loop or of the drain loop, and it brings what
the iteration reads from outside: the answers of the components, the clocks, calls
that cancel the flow, and the branch an idle iteration wakes up by.  Everything the
driver does to its surroundings is appended to `events`.
-/
import Torvyn.Reactor.Flow

namespace Torvyn.Reactor

/-! ## What a round reads -/

/-- The answers the components give in one round. -/
structure Invoker where
  pull : ComponentId → Answer (Option OutputElement)
  process : ComponentId → StreamElement → Answer ProcessResult
  push : ComponentId → StreamElement → Answer BackpressureSignal

/-- The branches of the `select!` an idle iteration waits in. -/
inductive Wake where
  | cancelled
  | deadline
  | tick
  deriving DecidableEq, Repr

/-- What one iteration reads from outside.  `cancelBefore` arrives before the
iteration looks at the token and `cancelDuring` after. -/
structure Round where
  invoker : Invoker
  start : ℕ
  finish : ℕ
  timestampNs : ℕ
  cancelBefore : Option CancellationReason
  cancelDuring : Option CancellationReason
  wake : Wake

/-! ## The driver -/

/-- The flow driver.  The last three fields are the local variables `drain_reason` and
`drain_deadline` of a run, and the record of what it has done. -/
structure FlowDriver where
  flowId : FlowId
  topology : FlowTopology
  streams : List StreamState
  streamIndex : StreamIndex
  componentMetrics : List ComponentMetrics
  cancellation : FlowCancellation
  timeouts : TimeoutConfig
  errorPolicy : ErrorPolicy
  yieldCtrl : YieldController
  state : FlowState
  startedAt : Option ℕ
  nextGlobalSequence : ℕ
  epochAnchor : Option (ℕ × ℕ)
  currentElementSequence : Option ℕ
  drainReason : Option CancellationReason
  drainDeadline : ℕ
  events : List FlowEvent

namespace FlowDriver

/-- `FlowDriver::new`. -/
def new (flowId : FlowId) (config : FlowConfig) (streams : List StreamState) (now : ℕ) :
    FlowDriver where
  flowId := flowId
  topology := config.topology
  streams := streams
  streamIndex := StreamIndex.build config.topology
  componentMetrics := List.replicate config.topology.stages.length .new
  cancellation := .new
  timeouts := config.timeouts
  errorPolicy := config.errorPolicy
  yieldCtrl := .new config.priority.elementsPerYield config.yieldConfig.timeQuantum now
  state := .instantiated
  startedAt := none
  nextGlobalSequence := 0
  epochAnchor := none
  currentElementSequence := none
  drainReason := none
  drainDeadline := 0
  events := []

/-- Append to the record of what the driver has done. -/
def log (d : FlowDriver) (event : FlowEvent) : FlowDriver := { d with events := d.events ++ [event] }

/-- `epoch_ns`: an instant in nanoseconds since the epoch, by the anchor.  The
fallback reads the wall clock. -/
def epochNs (d : FlowDriver) (instant wallClock : ℕ) : ℕ :=
  match d.epochAnchor with
  | some (anchorInstant, anchorNs) => min (anchorNs + (instant - anchorInstant)) u64Max
  | none => wallClock

/-- The beginning of `run`: the flow enters `Running`. -/
def enterRunning (d : FlowDriver) (now wallClock : ℕ) : FlowDriver :=
  { d with
      state := .running
      startedAt := some now
      epochAnchor := some (now, wallClock) }.log (.flowStateChanged .instantiated .running)

/-- Mark streams as complete on the producer's side. -/
def markComplete (d : FlowDriver) (sis : List ℕ) : FlowDriver :=
  { d with streams := sis.foldl (fun streams si => streams.modify si .markComplete) d.streams }

/-! ## Executing a stage -/

/-- The queued form of an output element: the reactor assigns its sequence number. -/
def stamp (seq originSequence timestampNs : ℕ) (output : OutputElement) : StreamElementRef where
  sequence := seq
  originSequence := originSequence
  bufferHandle := output.payload
  metadata := ⟨seq, timestampNs, output.metadata.contentType⟩

/-- Push an element that a source has produced.  Only an accepted element is counted
and reported; a rejected one is dropped with a warning. -/
def pushPulled (d : FlowDriver) (r : Round) (element : OutputElement) (si : ℕ) : FlowDriver :=
  let seq := d.nextGlobalSequence
  let elemRef := stamp seq seq r.timestampNs element
  let d := { d with nextGlobalSequence := seq + 1, currentElementSequence := some seq }
  match d.streams[si]? with
  | none => d
  | some stream =>
      let (result, stream) := stream.emit elemRef
      let d := d.log (.pushed stream.id elemRef result)
      match result with
      | .ok =>
          { d with streams := d.streams.set si stream.recordEnqueue }.log
            (.recordElementTransfer stream.id seq (stream.queue.len % 2 ^ 32))
      | _ => { d with streams := d.streams.set si stream }

/-- `execute_pull`. -/
def executePull (d : FlowDriver) (r : Round) (stageIdx : ℕ) (componentId : ComponentId) :
    FlowDriver × Except FlowError Unit :=
  let answer := r.invoker.pull componentId
  let d := d.log (.invoked componentId (.pull answer))
  match answer.toExcept componentId d.timeouts.componentInvocationTimeout with
  | .error e => (d, .error e)
  | .ok (some element) =>
      match (d.streamIndex.outputs stageIdx).head? with
      | some si => (d.pushPulled r element si, .ok ())
      | none => (d, .ok ())
  | .ok none => (d.markComplete (d.streamIndex.outputs stageIdx), .ok ())

/-- Find the input stream of a stage and take its first element.  For a stage that the
scheduler has chosen neither of the source's two `expect`s can fail. -/
def takeInput (d : FlowDriver) (inputStreamId : StreamId) :
    Option (StreamElementRef × FlowDriver) :=
  (d.streams.findIdx? fun s => s.id = inputStreamId).bind fun inputSi =>
    d.streams[inputSi]?.bind fun stream =>
      stream.take.1.map fun elemRef =>
        (elemRef,
          { d with
            streams := d.streams.set inputSi stream.take.2
            currentElementSequence := some elemRef.originSequence })

/-- Push an element that a processor has returned.  The result of the push is
ignored. -/
def pushOutput (d : FlowDriver) (input : StreamElementRef) (output : OutputElement) (si : ℕ) :
    FlowDriver :=
  let seq := d.nextGlobalSequence
  let outRef := stamp seq input.originSequence input.metadata.timestampNs output
  let d := { d with nextGlobalSequence := seq + 1 }
  match d.streams[si]? with
  | none => d
  | some stream =>
      let (result, stream) := stream.emit outRef
      { d with streams := d.streams.set si stream.recordEnqueue }.log
        (.pushed stream.id outRef result)

/-- Where the elements of a result go: a single output to the first output stream, the
`i`-th of several outputs to the `i`-th stream, if there is one. -/
def targets (result : ProcessResult) (outputs : List ℕ) : List (OutputElement × ℕ) :=
  match result with
  | .output output => outputs.head?.toList.map fun si => (output, si)
  | .filtered => []
  | .multiple elements => elements.zip outputs

/-- Push the outputs of one result, in order. -/
def pushAll (d : FlowDriver) (input : StreamElementRef) (ts : List (OutputElement × ℕ)) :
    FlowDriver :=
  ts.foldl (fun d t => d.pushOutput input t.1 t.2) d

/-- `execute_process`. -/
def executeProcess (d : FlowDriver) (r : Round) (stageIdx : ℕ) (componentId : ComponentId)
    (inputStreamId : StreamId) : FlowDriver × Except FlowError Unit :=
  match d.takeInput inputStreamId with
  | none => (d, .ok ())
  | some (elemRef, d) =>
      let streamElement : StreamElement := ⟨elemRef.metadata, elemRef.bufferHandle⟩
      let answer := r.invoker.process componentId streamElement
      let d := d.log (.invoked componentId (.process streamElement answer))
      match answer.toExcept componentId d.timeouts.componentInvocationTimeout with
      | .error e => (d, .error e)
      | .ok result =>
          (d.pushAll elemRef (targets result (d.streamIndex.outputs stageIdx)), .ok ())

/-- `execute_push`. -/
def executePush (d : FlowDriver) (r : Round) (componentId : ComponentId)
    (inputStreamId : StreamId) : FlowDriver × Except FlowError Unit :=
  match d.takeInput inputStreamId with
  | none => (d, .ok ())
  | some (elemRef, d) =>
      let streamElement : StreamElement := ⟨elemRef.metadata, elemRef.bufferHandle⟩
      let answer := r.invoker.push componentId streamElement
      let d := d.log (.invoked componentId (.push streamElement answer))
      match answer.toExcept componentId d.timeouts.componentInvocationTimeout with
      | .error e => (d, .error e)
      | .ok _ => (d.log (.recordFlowLatency (r.timestampNs - elemRef.metadata.timestampNs)), .ok ())

/-- Count an invocation and report it to the event sink. -/
def recordExecution (d : FlowDriver) (r : Round) (e : StageExecution)
    (result : Except FlowError Unit) : FlowDriver :=
  let isError := match result with
    | .ok _ => false
    | .error _ => true
  let status : InvocationStatus := match result with
    | .ok _ => .ok
    | .error err => .error err.kind
  let startNs := d.epochNs r.start r.timestampNs
  let endNs := d.epochNs r.finish r.timestampNs
  let d := { d with
    componentMetrics :=
      d.componentMetrics.modify e.stageIndex (·.recordInvocation (r.finish - r.start) isError) }
  let d := d.log (.recordInvocation e.componentId startNs endNs status)
  match d.currentElementSequence with
  | some seq => d.log (.recordElementSpan e.componentId seq startNs endNs status)
  | none => d

/-- The action of a stage. -/
def executeAction (d : FlowDriver) (r : Round) (e : StageExecution) :
    FlowDriver × Except FlowError Unit :=
  match e.action with
  | .pullFromSource => d.executePull r e.stageIndex e.componentId
  | .processElement inputStream => d.executeProcess r e.stageIndex e.componentId inputStream
  | .pushToSink inputStream => d.executePush r e.componentId inputStream

/-- `execute_stage`. -/
def executeStage (d : FlowDriver) (r : Round) (e : StageExecution) :
    FlowDriver × Except FlowError Unit :=
  let executed := { d with currentElementSequence := none }.executeAction r e
  (executed.1.recordExecution r e executed.2, executed.2)

/-! ## Between two stages -/

/-- `check_backpressure_all`, which returns the streams that changed state. -/
def checkBackpressureAll (d : FlowDriver) (r : Round) :
    FlowDriver × List (ℕ × BackpressureSignal) :=
  let checked := d.streams.map fun s => s.checkBackpressure r.finish
  ({ d with
      streams := checked.map Prod.snd
      events := d.events ++ checked.filterMap fun (signal, s) => signal.map fun signal =>
        .recordBackpressure s.id (signal == .pause) (s.queue.len % 2 ^ 32) r.timestampNs },
    checked.zipIdx.filterMap fun (c, streamIdx) => c.1.map fun signal => (streamIdx, signal))

/-- `notify_producers`: only sources are told. -/
def notifyProducers (d : FlowDriver) (transitions : List (ℕ × BackpressureSignal)) : FlowDriver :=
  { d with
    events := d.events ++ transitions.filterMap fun (streamIdx, signal) =>
      d.streamIndex.producers[streamIdx]?.bind fun stageIdx =>
        d.topology.stages[stageIdx]?.bind fun stage =>
          if stage.role = .source then
            some (.invoked stage.componentId (.notifyBackpressure signal))
          else none }

/-- The yield check. -/
def yieldCheck (d : FlowDriver) (r : Round) : FlowDriver :=
  let yieldCtrl := d.yieldCtrl.recordElement
  if yieldCtrl.shouldYield r.finish then
    { d with yieldCtrl := yieldCtrl.reset r.finish }.log
      (.flowYielded yieldCtrl.elementsSinceYield)
  else { d with yieldCtrl := yieldCtrl }

/-- Steps 5 and 6 of the main loop. -/
def afterStage (d : FlowDriver) (r : Round) : FlowDriver :=
  let checked := d.checkBackpressureAll r
  (checked.1.notifyProducers checked.2).yieldCheck r

/-- Whether all streams of a list of indices are complete. -/
def allComplete (streams : List StreamState) (sis : List ℕ) : Bool :=
  sis.all fun si => streams[si]?.any StreamState.isComplete

/-- The body of the loop of `propagate_producer_complete`. -/
def propagateStage (d : FlowDriver) (stageIdx : ℕ) : FlowDriver :=
  let inputs := d.streamIndex.inputs stageIdx
  if inputs.isEmpty then d
  else if allComplete d.streams inputs then d.markComplete (d.streamIndex.outputs stageIdx)
  else d

/-- `propagate_producer_complete`. -/
def propagateProducerComplete (d : FlowDriver) : FlowDriver :=
  (List.range d.topology.stages.length).foldl propagateStage d

/-- `all_streams_complete`. -/
def allStreamsComplete (d : FlowDriver) : Bool := d.streams.all StreamState.isComplete

/-! ## The main loop -/

/-- Cancel the flow, from outside or by the driver itself. -/
def cancelBy (d : FlowDriver) (reason : Option CancellationReason) : FlowDriver :=
  { d with cancellation := d.cancellation.cancelBy reason }

/-- How an iteration of the main loop ends. -/
inductive LoopControl where
  | next
  | stop
  deriving DecidableEq, Repr

/-- Whether the flow deadline has passed. -/
def deadlinePassed (d : FlowDriver) (now : ℕ) : Bool :=
  d.timeouts.flowDeadline.any fun deadline => decide (deadline ≤ now - d.startedAt.getD 0)

/-- The idle branch: propagate completion, stop when all streams are complete, and
otherwise wait. -/
def idle (d : FlowDriver) (r : Round) : FlowDriver × LoopControl :=
  let d := d.propagateProducerComplete.cancelBy r.cancelDuring
  if d.allStreamsComplete then (d.cancelBy (some .sourceComplete), .stop)
  else
    match r.wake with
    | .cancelled => (d, if d.cancellation.isCancelled then .stop else .next)
    | .deadline =>
        if d.deadlinePassed r.finish then
          (d.cancelBy (some (.timeout (r.finish - d.startedAt.getD 0))), .stop)
        else (d, .next)
    | .tick => (d, .next)

/-- The stage the scheduler chooses. -/
def nextReady (d : FlowDriver) : Option StageExecution :=
  nextReadyStage d.topology d.streams d.streamIndex

/-- Steps 3 to 6 of the main loop. -/
def runStage (d : FlowDriver) (r : Round) (e : StageExecution) : FlowDriver × LoopControl :=
  let executed := d.executeStage r e
  let d := executed.1.cancelBy r.cancelDuring
  match executed.2, d.errorPolicy with
  | .error err, .failFast => (d.cancelBy (some (cancellationReason err)), .stop)
  | _, _ => (d.afterStage r, .next)

/-- One iteration of the main loop. -/
def iterate (d : FlowDriver) (r : Round) : FlowDriver × LoopControl :=
  let d := d.cancelBy r.cancelBefore
  if d.cancellation.isCancelled then (d, .stop)
  else
    match d.nextReady with
    | some e => d.runStage r e
    | none => d.idle r

/-! ## The drain phase -/

/-- Mark the outputs of a stage without inputs as complete. -/
def markSource (d : FlowDriver) (stageIdx : ℕ) : FlowDriver :=
  if (d.streamIndex.inputs stageIdx).isEmpty then d.markComplete (d.streamIndex.outputs stageIdx)
  else d

/-- The outputs of all stages without inputs are marked complete before the drain. -/
def markSourcesComplete (d : FlowDriver) : FlowDriver :=
  (List.range d.topology.stages.length).foldl markSource d

/-- Enter the drain phase, and fix its deadline. -/
def beginDrain (d : FlowDriver) (r : Round) : FlowDriver :=
  { d.markSourcesComplete with
    drainReason := d.cancellation.reason
    state := .draining
    drainDeadline := r.finish + d.timeouts.drainTimeout }.log
      (.flowStateChanged .running .draining)

/-- The force-drain at the end of `drain_queues`. -/
def forceDrain (d : FlowDriver) : FlowDriver :=
  { d with
    streams := d.streams.map StreamState.discardAll
    events := d.events ++ d.streams.filterMap fun s =>
      if s.queue.drainAll.1.isEmpty then none else some (.discarded s.id s.queue.drainAll.1) }

/-- The final statistics. -/
def completionStats (d : FlowDriver) (r : Round) : FlowCompletionStats :=
  let stats := (FlowCompletionStats.new (r.finish - d.startedAt.getD 0)).aggregateFromStreams
    (d.streams.map fun s => (s.id, s.metrics))
  (d.topology.stages.zip d.componentMetrics).foldl
    (fun stats (stage, cm) => stats.insertComponent stage.componentId cm) stats

/-- The end of a run: force-drain, statistics and terminal state. -/
def finish (d : FlowDriver) (r : Round) : FlowDriver :=
  let d := d.forceDrain
  let final := terminalState d.drainReason
  ({ d with state := final }.log (.flowStateChanged .draining final)).log
    (.flowCompleted (d.completionStats r))

/-- One iteration of the drain loop; when the deadline has passed or nothing is ready,
the run ends. -/
def drainStep (d : FlowDriver) (r : Round) : FlowDriver :=
  if r.start < d.drainDeadline then
    match d.nextReady with
    | some e => (d.executeStage r e).1
    | none => d.finish r
  else d.finish r

/-! ## Runs -/

/-- One round. -/
def step (d : FlowDriver) (r : Round) : FlowDriver :=
  match d.state with
  | .running =>
      match d.iterate r with
      | (d, .next) => d
      | (d, .stop) => d.beginDrain r
  | .draining => d.drainStep r
  | _ => d

/-- A run of several rounds. -/
def run (d : FlowDriver) (rounds : List Round) : FlowDriver := rounds.foldl step d

@[simp] theorem run_nil (d : FlowDriver) : d.run [] = d := rfl

@[simp] theorem run_cons (d : FlowDriver) (r : Round) (rounds : List Round) :
    d.run (r :: rounds) = (d.step r).run rounds := rfl

theorem run_append (d : FlowDriver) (rounds rounds' : List Round) :
    d.run (rounds ++ rounds') = (d.run rounds).run rounds' := List.foldl_append

end FlowDriver

/-! ## Spawning a flow -/

/-- The stream of one connection: an override of the connection, else the default of
the flow. -/
def spawnStream (flowId : FlowId) (config : FlowConfig) (idx : ℕ) (conn : StreamConnection) :
    Option StreamState :=
  config.topology.stages[conn.fromStage]?.bind fun producer =>
    config.topology.stages[conn.toStage]?.bind fun consumer =>
      StreamState.new ⟨idx⟩ flowId producer.componentId consumer.componentId
        (conn.config.capacity.getD config.defaultQueueCapacity)
        (conn.config.backpressurePolicy.getD config.defaultBackpressurePolicy)
        (conn.config.lowWatermarkRatio.getD config.defaultLowWatermarkRatio)

/-- The streams of the connections from the index `idx` on. -/
def spawnStreamsFrom (flowId : FlowId) (config : FlowConfig) :
    ℕ → List StreamConnection → Option (List StreamState)
  | _, [] => some []
  | idx, conn :: conns =>
      (spawnStream flowId config idx conn).bind fun stream =>
        (spawnStreamsFrom flowId config (idx + 1) conns).map (stream :: ·)

/-- The streams the coordinator builds for a flow, one for each connection. -/
def spawnStreams (flowId : FlowId) (config : FlowConfig) : Option (List StreamState) :=
  spawnStreamsFrom flowId config 0 config.topology.connections

/-- A flow with its streams: every capacity is positive. -/
structure BuiltFlow where
  flowId : FlowId
  config : FlowConfig
  streams : List StreamState
  startedAt : ℕ
  wallClock : ℕ
  built : spawnStreams flowId config = some streams

/-- A flow as the coordinator starts it, which has validated its topology first. -/
structure SpawnedFlow extends BuiltFlow where
  validated : config.topology.validate = .ok ()

namespace BuiltFlow

/-- The driver when its main loop begins. -/
def start (f : BuiltFlow) : FlowDriver :=
  (FlowDriver.new f.flowId f.config f.streams f.startedAt).enterRunning f.startedAt f.wallClock

/-- The driver after some rounds. -/
def run (f : BuiltFlow) (rounds : List Round) : FlowDriver := f.start.run rounds

theorem run_snoc (f : BuiltFlow) (rounds : List Round) (r : Round) :
    f.run (rounds ++ [r]) = (f.run rounds).step r :=
  FlowDriver.run_append f.start rounds [r]

end BuiltFlow

/-! ## Small flows -/

/-- `FlowConfig::default_with_topology`. -/
def FlowConfig.defaultWithTopology (t : FlowTopology) : FlowConfig where
  topology := t
  priority := .normal
  timeouts := ⟨none, 5000000000, 5000000000⟩
  defaultBackpressurePolicy := .blockProducer
  defaultQueueCapacity := 64
  defaultLowWatermarkRatio := ⟨(· / 2)⟩
  yieldConfig := ⟨32, 100000⟩
  errorPolicy := .failFast

/-- A flow of stages with the given roles, connected by the given edges, with one
capacity for all streams. -/
def smallConfig (roles : List ComponentRole) (edges : List (ℕ × ℕ)) (capacity : UInt64) :
    FlowConfig :=
  .defaultWithTopology
    { stages := roles.zipIdx.map fun (role, i) => ⟨⟨i⟩, role⟩
      connections := edges.map fun (u, v) => ⟨u, v, ⟨some capacity, none, none⟩⟩ }

/-- An element with the payload `n`. -/
def smallElement (n : ℕ) : OutputElement := ⟨⟨0, 0, ""⟩, ⟨⟨n, 0⟩⟩⟩

/-- Components of which sources produce without end, processors hand their input on to
the first `width` outputs, and sinks are ready. -/
def forwarding (width : ℕ) : Invoker where
  pull := fun _ => .ok (some (smallElement 0))
  process := fun _ e => .ok (.multiple (List.replicate width ⟨e.metadata, e.payload⟩))
  push := fun _ _ => .ok .ready

/-- A round in which nobody cancels and no time passes. -/
def quietRound (invoker : Invoker) : Round := ⟨invoker, 0, 0, 0, none, none, .tick⟩

end Torvyn.Reactor
