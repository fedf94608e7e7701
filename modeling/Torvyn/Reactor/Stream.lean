/-
# Streams

The runtime state of one connection (`stream.rs`), its demand credit (`demand.rs`),
its backpressure state (`backpressure.rs`) and its metrics (`metrics.rs`).  Time is
read from outside: every function that calls `Instant::now` takes the instant as an
argument, in nanoseconds.
-/
import Torvyn.Reactor.Queue

namespace Torvyn.Reactor

/-! ## Elements and metrics -/

/-- A queued element: its buffer and its metadata.  `originSequence` is the number
the element had when it entered at the source. -/
structure StreamElementRef where
  sequence : ℕ
  originSequence : ℕ
  bufferHandle : BufferHandle
  metadata : ElementMeta
  deriving DecidableEq, Repr

/-- Cumulative metrics of a stream.  The counters are 64 bits wide and step by one,
so they are kept as unbounded numbers. -/
structure StreamMetrics where
  elementsTotal : ℕ
  backpressureEvents : ℕ
  backpressureDuration : ℕ
  peakQueueDepth : ℕ
  deriving DecidableEq, Repr

namespace StreamMetrics

/-- `StreamMetrics::new`. -/
def new : StreamMetrics := ⟨0, 0, 0, 0⟩

/-- Count one element and keep the deepest queue seen. -/
def recordEnqueue (m : StreamMetrics) (queueDepth : ℕ) : StreamMetrics :=
  { m with
    elementsTotal := m.elementsTotal + 1
    peakQueueDepth := if queueDepth > m.peakQueueDepth then queueDepth else m.peakQueueDepth }

/-- Count one activation of backpressure. -/
def recordBackpressureEvent (m : StreamMetrics) : StreamMetrics :=
  { m with backpressureEvents := m.backpressureEvents + 1 }

/-- Add the length of one phase of backpressure. -/
def addBackpressureDuration (m : StreamMetrics) (duration : ℕ) : StreamMetrics :=
  { m with backpressureDuration := m.backpressureDuration + duration }

end StreamMetrics

/-! ## Backpressure -/

/-- Backpressure of a stream; an active phase remembers when it began. -/
inductive BackpressureState where
  | normal
  | active (since : ℕ)
  deriving DecidableEq, Repr

namespace BackpressureState

/-- Whether backpressure is active. -/
def isActive : BackpressureState → Bool
  | .normal => false
  | .active _ => true

/-- `try_activate`: whether the state changed, and the new state. -/
def tryActivate (b : BackpressureState) (now : ℕ) : Bool × BackpressureState :=
  match b with
  | .normal => (true, .active now)
  | .active since => (false, .active since)

/-- `try_deactivate`: how long the phase that ends here lasted, and the new state. -/
def tryDeactivate (b : BackpressureState) (now : ℕ) : Option ℕ × BackpressureState :=
  match b with
  | .active since => (some (now - since), .normal)
  | .normal => (none, .normal)

end BackpressureState

/-- The hysteresis: activate at capacity, deactivate at the low watermark. -/
def checkBackpressureTransition (queueLen queueCapacity lowWatermarkDepth : ℕ)
    (currentlyActive : Bool) : Option Bool :=
  if !currentlyActive && decide (queueLen ≥ queueCapacity) then some true
  else if currentlyActive && decide (queueLen ≤ lowWatermarkDepth) then some false
  else none

/-! ## Stream state -/

/-- A low watermark ratio, by what it makes of a capacity: the depth
`(capacity as f64 * ratio) as usize`.  The conversion saturates, so every float,
`NaN` included, gives some natural number for each capacity. -/
structure LowWatermarkRatio where
  depth : ℕ → ℕ

/-- The runtime state of a stream. -/
structure StreamState where
  id : StreamId
  flowId : FlowId
  producer : ComponentId
  consumer : ComponentId
  queue : BoundedQueue StreamElementRef
  backpressurePolicy : BackpressurePolicy
  backpressure : BackpressureState
  lowWatermarkRatio : LowWatermarkRatio
  demand : ℕ
  producerComplete : Bool
  metrics : StreamMetrics

/-- The largest 64-bit number. -/
def u64Max : ℕ := 2 ^ 64 - 1

namespace StreamState

/-- `StreamState::new`; the capacity is the whole initial demand.  Like
`BoundedQueue::new` it panics on a capacity of zero. -/
def new (id : StreamId) (flowId : FlowId) (producer consumer : ComponentId) (capacity : UInt64)
    (policy : BackpressurePolicy) (ratio : LowWatermarkRatio) : Option StreamState :=
  (BoundedQueue.new capacity.toNat).map fun queue =>
    { id := id
      flowId := flowId
      producer := producer
      consumer := consumer
      queue := queue
      backpressurePolicy := policy
      backpressure := .normal
      lowWatermarkRatio := ratio
      demand := capacity.toNat
      producerComplete := false
      metrics := .new }

/-- Whether the producer may produce: demand, room, no backpressure, not complete. -/
def producerCanProduce (s : StreamState) : Bool :=
  !s.producerComplete && decide (s.demand > 0) && !s.queue.isFull && !s.backpressure.isActive

/-- Whether the consumer has an element to consume. -/
def consumerHasInput (s : StreamState) : Bool := !s.queue.isEmpty

/-- The queue depth at which backpressure ends. -/
def lowWatermarkDepth (s : StreamState) : ℕ := s.lowWatermarkRatio.depth s.queue.capacity

/-- Whether the producer is done and the queue is empty. -/
def isComplete (s : StreamState) : Bool := s.producerComplete && s.queue.isEmpty

/-- `replenish_demand`: a saturating increment. -/
def replenishDemand (s : StreamState) : StreamState :=
  { s with demand := min (s.demand + 1) u64Max }

/-- `consume_demand`: a saturating decrement.  The `debug_assert!` on a demand of
zero is compiled out of release builds. -/
def consumeDemand (s : StreamState) : StreamState := { s with demand := s.demand - 1 }

/-- Mark the stream as complete on its producer's side. -/
def markComplete (s : StreamState) : StreamState := { s with producerComplete := true }

/-- Spend one unit of demand and push an element. -/
def emit (s : StreamState) (element : StreamElementRef) :
    PushResult StreamElementRef × StreamState :=
  ((s.consumeDemand.queue.push element).1,
    { s.consumeDemand with queue := (s.consumeDemand.queue.push element).2 })

/-- Pop an element and give one unit of demand back. -/
def take (s : StreamState) : Option StreamElementRef × StreamState :=
  (s.queue.pop.1, { s with queue := s.queue.pop.2 }.replenishDemand)

/-- Count an element that has been pushed.  The depth is cast to 32 bits. -/
def recordEnqueue (s : StreamState) : StreamState :=
  { s with metrics := s.metrics.recordEnqueue (s.queue.len % 2 ^ 32) }

/-- The body of the loop of `check_backpressure_all`: the signal for the producer, if
the state of the stream changed, and the new state. -/
def checkBackpressure (s : StreamState) (now : ℕ) : Option BackpressureSignal × StreamState :=
  match checkBackpressureTransition s.queue.len s.queue.capacity s.lowWatermarkDepth
      s.backpressure.isActive with
  | none => (none, s)
  | some true =>
      match s.backpressure.tryActivate now with
      | (true, b) =>
          (some .pause, { s with backpressure := b, metrics := s.metrics.recordBackpressureEvent })
      | (false, b) => (none, { s with backpressure := b })
  | some false =>
      match s.backpressure.tryDeactivate now with
      | (some duration, b) =>
          (some .ready,
            { s with backpressure := b, metrics := s.metrics.addBackpressureDuration duration })
      | (none, b) => (none, { s with backpressure := b })

/-- Throw the queued elements away. -/
def discardAll (s : StreamState) : StreamState := { s with queue := s.queue.drainAll.2 }

/-! ## The credit of a stream -/

/-- The credit law: demand and queued elements make up the capacity, which is a
64-bit number. -/
structure Credit (s : StreamState) : Prop where
  law : s.demand + s.queue.len = s.queue.capacity
  bound : s.queue.capacity ≤ u64Max

/-- A new stream has all its credit as demand, and nothing has happened to it. -/
theorem new_spec {id : StreamId} {flowId : FlowId} {producer consumer : ComponentId}
    {capacity : UInt64} {policy : BackpressurePolicy} {ratio : LowWatermarkRatio}
    {s : StreamState} (h : new id flowId producer consumer capacity policy ratio = some s) :
    s.Credit ∧ s.id = id ∧ s.queue.len = 0 ∧ s.backpressure = .normal ∧
      s.producerComplete = false ∧ s.metrics = .new := by
  obtain ⟨queue, hq, rfl⟩ := Option.map_eq_some_iff.mp h
  unfold BoundedQueue.new at hq
  split at hq
  · obtain rfl := Option.some.inj hq
    have hlt := capacity.toNat_lt
    exact ⟨⟨by simp, by simp only [u64Max]; omega⟩, rfl, rfl, rfl, rfl, rfl⟩
  · exact absurd hq (by simp)

/-- With credit, a producible stream is one with room that is neither complete nor
under backpressure. -/
theorem producerCanProduce_iff {s : StreamState} (h : s.Credit) :
    s.producerCanProduce = true ↔
      s.producerComplete = false ∧ s.queue.isFull = false ∧ s.backpressure.isActive = false := by
  have hlaw := h.law
  have hle := s.queue.len_le
  simp only [producerCanProduce, Bool.and_eq_true, Bool.not_eq_true', decide_eq_true_eq,
    ← Bool.not_eq_true, BoundedQueue.isFull_iff]
  constructor
  · rintro ⟨⟨⟨hc, -⟩, hf⟩, hb⟩
    exact ⟨hc, hf, hb⟩
  · rintro ⟨hc, hf, hb⟩
    exact ⟨⟨⟨hc, by omega⟩, hf⟩, hb⟩

/-- Emitting an element fills one slot if there is one. -/
@[simp] theorem len_emit (s : StreamState) (element : StreamElementRef) :
    (s.emit element).2.queue.len = min (s.queue.len + 1) s.queue.capacity := by
  have hle := s.queue.len_le
  show (s.queue.push element).2.len = _
  by_cases h : s.queue.len < s.queue.capacity
  · rw [BoundedQueue.push_of_lt element h, BoundedQueue.len_enqueue]
    omega
  · have hfull : s.queue.len = s.queue.capacity := by omega
    rw [BoundedQueue.push_of_full element hfull]
    show s.queue.len = _
    omega

@[simp] theorem capacity_emit (s : StreamState) (element : StreamElementRef) :
    (s.emit element).2.queue.capacity = s.queue.capacity :=
  BoundedQueue.capacity_push _ _

/-- An emitted element is accepted exactly when the stream is not full. -/
theorem emit_fst_eq_ok_iff {s : StreamState} {element : StreamElementRef} :
    (s.emit element).1 = .ok ↔ s.queue.isFull = false := BoundedQueue.push_fst_eq_ok_iff

/-- Taking an element frees one slot. -/
@[simp] theorem len_take (s : StreamState) : s.take.2.queue.len = s.queue.len - 1 := by
  show s.queue.pop.2.len = _
  by_cases h : 0 < s.queue.len
  · obtain ⟨a, hpop, -⟩ := BoundedQueue.pop_of_pos h
    rw [hpop, BoundedQueue.len_dequeue]
  · have hzero : s.queue.len = 0 := by omega
    rw [BoundedQueue.pop_of_empty hzero, hzero]

@[simp] theorem capacity_take (s : StreamState) :
    s.take.2.queue.capacity = s.queue.capacity := by
  show s.queue.pop.2.capacity = _
  by_cases h : 0 < s.queue.len
  · obtain ⟨a, hpop, -⟩ := BoundedQueue.pop_of_pos h
    rw [hpop, BoundedQueue.capacity_dequeue]
  · rw [BoundedQueue.pop_of_empty (by omega)]

/-- Emitting keeps the credit law: an accepted element costs one unit of demand, and
a stream without demand is full and rejects the element. -/
theorem Credit.emit {s : StreamState} (h : s.Credit) (element : StreamElementRef) :
    (s.emit element).2.Credit := by
  have hlaw := h.law
  have hle := s.queue.len_le
  have hbound := h.bound
  refine ⟨?_, by rwa [capacity_emit]⟩
  rw [len_emit, capacity_emit]
  show s.demand - 1 + _ = _
  omega

/-- Taking an element from a nonempty stream keeps the credit law. -/
theorem Credit.take {s : StreamState} (h : s.Credit) (hpos : 0 < s.queue.len) :
    s.take.2.Credit := by
  have hlaw := h.law
  have hbound := h.bound
  refine ⟨?_, by rwa [capacity_take]⟩
  rw [len_take, capacity_take]
  show min (s.demand + 1) u64Max + _ = _
  omega

/-! ## The backpressure check -/

section CheckBackpressure

variable (s : StreamState) (now : ℕ)

/-- The check touches nothing but the backpressure state and the metrics. -/
theorem checkBackpressure_frame :
    (s.checkBackpressure now).2.id = s.id ∧ (s.checkBackpressure now).2.queue = s.queue ∧
      (s.checkBackpressure now).2.demand = s.demand ∧
      (s.checkBackpressure now).2.producerComplete = s.producerComplete ∧
      (s.checkBackpressure now).2.metrics.elementsTotal = s.metrics.elementsTotal := by
  unfold checkBackpressure
  split
  · exact ⟨rfl, rfl, rfl, rfl, rfl⟩
  · split <;> exact ⟨rfl, rfl, rfl, rfl, rfl⟩
  · split <;> exact ⟨rfl, rfl, rfl, rfl, rfl⟩

/-- **After a check an active stream holds an element**, whatever its watermark. -/
theorem pos_of_isActive_checkBackpressure
    (h : (s.checkBackpressure now).2.backpressure.isActive = true) : 0 < s.queue.len := by
  have hcap := s.queue.capacity_pos
  by_contra hzero
  have hlen : s.queue.len = 0 := by omega
  unfold checkBackpressure checkBackpressureTransition at h
  cases hb : s.backpressure with
  | normal =>
      have hlt : ¬(s.queue.len ≥ s.queue.capacity) := by omega
      simp [hb, BackpressureState.isActive, hlt] at h
  | active since =>
      simp [hb, BackpressureState.isActive, hlen, BackpressureState.tryDeactivate] at h

end CheckBackpressure

end StreamState

end Torvyn.Reactor
