/-
# Configuration and account of a flow

What a flow driver is configured with (`config.rs`, `fairness.rs`), how a flow ends
(`cancellation.rs`, `error.rs`) and what it reports on the way (`metrics.rs`,
`events.rs` and the event sink of `torvyn-types`).  Durations and instants are
numbers of nanoseconds.
-/
import Torvyn.Reactor.Scheduling

namespace Torvyn.Reactor

/-! ## Configuration -/

/-- The scheduling priority of a flow. -/
inductive FlowPriority where
  | background
  | low
  | normal
  | high
  | critical
  deriving DecidableEq, Repr

/-- The elements a flow of this priority processes between two yields. -/
def FlowPriority.elementsPerYield : FlowPriority → ℕ
  | .critical => 128
  | .high => 64
  | .normal => 32
  | .low => 16
  | .background => 8

/-- The timeouts of a flow. -/
structure TimeoutConfig where
  flowDeadline : Option ℕ
  componentInvocationTimeout : ℕ
  drainTimeout : ℕ
  deriving DecidableEq, Repr

/-- The yield settings of a flow. -/
structure YieldConfig where
  elementsPerYield : ℕ
  timeQuantum : ℕ
  deriving DecidableEq, Repr

/-- What the driver does when an invocation fails. -/
inductive ErrorPolicy where
  | failFast
  | retry (maxRetries backoff : ℕ)
  | skipElement
  | logAndContinue
  deriving DecidableEq, Repr

/-- The configuration of a flow. -/
structure FlowConfig where
  topology : FlowTopology
  priority : FlowPriority
  timeouts : TimeoutConfig
  defaultBackpressurePolicy : BackpressurePolicy
  defaultQueueCapacity : UInt64
  defaultLowWatermarkRatio : LowWatermarkRatio
  yieldConfig : YieldConfig
  errorPolicy : ErrorPolicy

/-- `MAX_CONSECUTIVE_ELEMENTS_BEFORE_YIELD`. -/
def maxConsecutiveElementsBeforeYield : ℕ := 256

/-- When the driver last gave way to the runtime, and how much it has done since. -/
structure YieldController where
  elementsSinceYield : ℕ
  lastYieldAt : ℕ
  elementsPerYield : ℕ
  timeQuantum : ℕ
  deriving DecidableEq, Repr

namespace YieldController

/-- `YieldController::new`, with the hard ceiling on the elements. -/
def new (elementsPerYield timeQuantum now : ℕ) : YieldController :=
  ⟨0, now, min elementsPerYield maxConsecutiveElementsBeforeYield, timeQuantum⟩

/-- Count one element. -/
def recordElement (y : YieldController) : YieldController :=
  { y with elementsSinceYield := y.elementsSinceYield + 1 }

/-- Whether the driver should yield now. -/
def shouldYield (y : YieldController) (now : ℕ) : Bool :=
  decide (y.elementsSinceYield ≥ y.elementsPerYield) ||
    decide (now - y.lastYieldAt ≥ y.timeQuantum)

/-- Start counting anew. -/
def reset (y : YieldController) (now : ℕ) : YieldController :=
  { y with elementsSinceYield := 0, lastYieldAt := now }

end YieldController

/-! ## Errors and cancellation -/

/-- The errors the stage executors return. -/
inductive FlowError where
  | componentError (component : ComponentId) (error : ProcessError)
  | componentTimeout (component : ComponentId) (timeout : ℕ)
  deriving DecidableEq, Repr

/-- The category a flow error is recorded under. -/
def FlowError.kind : FlowError → ProcessErrorKind
  | .componentError _ error => error.kind
  | .componentTimeout _ _ => .deadlineExceeded

/-- Why a flow was cancelled. -/
inductive CancellationReason where
  | operatorRequest
  | timeout (elapsed : ℕ)
  | downstreamError (component : ComponentId) (error : ProcessError)
  | resourceExhaustion (detail : String)
  | sourceComplete
  deriving DecidableEq, Repr

/-- `cancellation_reason`: the reason a flow error warrants. -/
def cancellationReason : FlowError → CancellationReason
  | .componentError component error => .downstreamError component error
  | .componentTimeout component _ => .downstreamError component .deadlineExceeded

/-- The cancellation token of a flow.  The reason is written before the flag, so the
flag is the presence of a reason. -/
structure FlowCancellation where
  reason : Option CancellationReason
  deriving DecidableEq, Repr

namespace FlowCancellation

/-- A fresh token. -/
def new : FlowCancellation := ⟨none⟩

/-- `cancel`: only the first reason is kept. -/
def cancel (c : FlowCancellation) (reason : CancellationReason) : FlowCancellation :=
  ⟨some (c.reason.getD reason)⟩

/-- Calls to `cancel` from outside the driver; among several only the first counts. -/
def cancelBy (c : FlowCancellation) (reason : Option CancellationReason) : FlowCancellation :=
  match reason with
  | some reason => c.cancel reason
  | none => c

/-- Whether the flow has been cancelled. -/
def isCancelled (c : FlowCancellation) : Bool := c.reason.isSome

end FlowCancellation

/-- The terminal state a reason stands for. -/
def terminalState : Option CancellationReason → FlowState
  | some .sourceComplete => .completed
  | some .operatorRequest => .cancelled
  | some _ => .failed
  | none => .completed

/-! ## Metrics and events -/

/-- Cumulative metrics of a component. -/
structure ComponentMetrics where
  invocations : ℕ
  errors : ℕ
  totalInvocationTime : ℕ
  deriving DecidableEq, Repr

namespace ComponentMetrics

/-- `ComponentMetrics::new`. -/
def new : ComponentMetrics := ⟨0, 0, 0⟩

/-- Count one invocation. -/
def recordInvocation (m : ComponentMetrics) (duration : ℕ) (isError : Bool) : ComponentMetrics where
  invocations := m.invocations + 1
  errors := if isError then m.errors + 1 else m.errors
  totalInvocationTime := m.totalInvocationTime + duration

end ComponentMetrics

/-- The statistics a flow ends with. -/
structure FlowCompletionStats where
  totalDuration : ℕ
  totalElements : ℕ
  totalBackpressureEvents : ℕ
  totalBackpressureDuration : ℕ
  streamStats : StreamId → Option StreamMetrics
  componentStats : ComponentId → Option ComponentMetrics

namespace FlowCompletionStats

/-- `FlowCompletionStats::new`. -/
def new (totalDuration : ℕ) : FlowCompletionStats :=
  ⟨totalDuration, 0, 0, 0, fun _ => none, fun _ => none⟩

/-- `aggregate_from_streams`. -/
def aggregateFromStreams (stats : FlowCompletionStats)
    (streams : List (StreamId × StreamMetrics)) : FlowCompletionStats :=
  streams.foldl (fun stats (id, metrics) =>
    { stats with
      totalElements := stats.totalElements + metrics.elementsTotal
      totalBackpressureEvents := stats.totalBackpressureEvents + metrics.backpressureEvents
      totalBackpressureDuration := stats.totalBackpressureDuration + metrics.backpressureDuration
      streamStats := Function.update stats.streamStats id (some metrics) }) stats

/-- Insert the metrics of one component. -/
def insertComponent (stats : FlowCompletionStats) (id : ComponentId) (m : ComponentMetrics) :
    FlowCompletionStats :=
  { stats with componentStats := Function.update stats.componentStats id (some m) }

end FlowCompletionStats

/-- The answer to an invocation: a value, the component's error, or no answer within
the component's time. -/
inductive Answer (α : Type) where
  | ok (value : α)
  | error (error : ProcessError)
  | timeout
  deriving DecidableEq, Repr

/-- `map_err` of an invocation's result. -/
def Answer.toExcept {α : Type} (answer : Answer α) (component : ComponentId) (timeout : ℕ) :
    Except FlowError α :=
  match answer with
  | .ok value => .ok value
  | .error e => .error (.componentError component e)
  | .timeout => .error (.componentTimeout component timeout)

/-- One call of the component invoker, with its argument and its answer. -/
inductive Invocation where
  | pull (answer : Answer (Option OutputElement))
  | process (element : StreamElement) (answer : Answer ProcessResult)
  | push (element : StreamElement) (answer : Answer BackpressureSignal)
  | notifyBackpressure (signal : BackpressureSignal)
  deriving DecidableEq, Repr

/-- What a driver does, in the order in which it does it: invocations of components,
pushes onto streams, discarded elements, calls of the event sink and events of the
reactor. -/
inductive FlowEvent where
  | invoked (component : ComponentId) (call : Invocation)
  | pushed (stream : StreamId) (element : StreamElementRef) (result : PushResult StreamElementRef)
  | discarded (stream : StreamId) (elements : List StreamElementRef)
  | recordInvocation (component : ComponentId) (startNs endNs : ℕ) (status : InvocationStatus)
  | recordElementSpan (component : ComponentId) (elementSequence startNs endNs : ℕ)
      (status : InvocationStatus)
  | recordElementTransfer (stream : StreamId) (elementSequence queueDepth : ℕ)
  | recordFlowLatency (latencyNs : ℕ)
  | recordBackpressure (stream : StreamId) (activated : Bool) (queueDepth timestampNs : ℕ)
  | flowStateChanged (oldState newState : FlowState)
  | flowYielded (elementsSinceLastYield : ℕ)
  | flowCompleted (stats : FlowCompletionStats)

namespace FlowEvent

/-- A push that found the queue full, so that its element is lost. -/
def isRejection : FlowEvent → Bool
  | .pushed _ _ (.full _) => true
  | _ => false

/-- Elements thrown away from a queue. -/
def isDiscard : FlowEvent → Bool
  | .discarded _ elements => !elements.isEmpty
  | _ => false

end FlowEvent

end Torvyn.Reactor
