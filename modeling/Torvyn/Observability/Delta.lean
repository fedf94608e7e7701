/-
# Deltas of snapshots

`snapshot_flow` and `delta` of `metrics/snapshot.rs`, over the metrics of a flow under any history
of updates.  A delta subtracts the totals of the flow, and takes the counters of the components and
of the streams as they are at its end; so it leaves out what has happened before it only where
nothing has (`delta_additive_iff`).
-/
import Torvyn.Observability.Histogram
import Torvyn.Types

namespace Torvyn.Observability.Metrics

/-! ## The metrics of a flow -/

/-- The counters of a flow. -/
inductive Total where
  | elementsTotal
  | errorsTotal
  | copiesTotal
  | copyBytesTotal
  deriving DecidableEq, Repr

/-- The counters of a component. -/
inductive ComponentCounter where
  | invocations
  | errors
  | fuelConsumed
  deriving DecidableEq, Repr

/-- The gauges of a component. -/
inductive ComponentGauge where
  | memoryCurrent
  | memoryPeak
  deriving DecidableEq, Repr

/-- The counters of a stream. -/
inductive StreamCounter where
  | elements
  | backpressureEvents
  | backpressureDurationNs
  deriving DecidableEq, Repr

/-- The gauges of a stream. -/
inductive StreamGauge where
  | queueDepth
  | queueDepthPeak
  deriving DecidableEq, Repr

/-- The metrics of a component. -/
structure ComponentMetrics where
  componentId : ComponentId
  counter : ComponentCounter → ℕ
  gauge : ComponentGauge → ℕ
  processingTime : Histogram

/-- The metrics of a stream. -/
structure StreamMetrics where
  streamId : StreamId
  counter : StreamCounter → ℕ
  gauge : StreamGauge → ℕ

/-- The metrics of a flow. -/
structure FlowMetrics where
  flowId : FlowId
  total : Total → ℕ
  endToEndLatency : Histogram
  components : List ComponentMetrics
  streams : List StreamMetrics

/-- `LATENCY_BUCKETS_NS`. -/
def latencyBucketsNs : Boundaries where
  val := [100, 250, 500, 1000, 2500, 5000, 10000, 25000, 50000, 100000, 250000, 500000, 1000000,
    2500000, 5000000, 10000000, 25000000, 50000000, 100000000, 250000000, 500000000, 1000000000,
    2500000000, 5000000000, 10000000000]
  property := by decide

/-- `ComponentMetrics::new`. -/
def ComponentMetrics.new (id : ComponentId) : ComponentMetrics :=
  ⟨id, fun _ => 0, fun _ => 0, .new latencyBucketsNs⟩

/-- `StreamMetrics::new`. -/
def StreamMetrics.new (id : StreamId) : StreamMetrics := ⟨id, fun _ => 0, fun _ => 0⟩

/-- `FlowMetrics::new`. -/
def FlowMetrics.new (flowId : FlowId) (componentIds : List ComponentId)
    (streamIds : List StreamId) : FlowMetrics :=
  ⟨flowId, fun _ => 0, .new latencyBucketsNs, componentIds.map .new, streamIds.map .new⟩

/-! ## Updates -/

/-- A counter of a flow, of one of its components or of one of its streams. -/
inductive CounterName where
  | total (counter : Total)
  | component (index : ℕ) (counter : ComponentCounter)
  | stream (index : ℕ) (counter : StreamCounter)
  deriving DecidableEq, Repr

/-- An update: an increment of a counter, a new value of a gauge, or a value for a histogram.  The
methods of the event sink consist of these. -/
inductive Update where
  | increment (name : CounterName) (delta : ℕ)
  | setComponentGauge (index : ℕ) (gauge : ComponentGauge) (value : ℕ)
  | setStreamGauge (index : ℕ) (gauge : StreamGauge) (value : ℕ)
  | recordLatency (value : ℕ)
  | recordProcessingTime (index value : ℕ)

/-- `Counter::increment`, which goes round at 64 bits. -/
def increment {ι : Type} [DecidableEq ι] (counter : ι → ℕ) (i : ι) (delta : ℕ) : ι → ℕ :=
  Function.update counter i ((counter i + delta) % 2 ^ 64)

namespace FlowMetrics

/-- Change the metrics of a component. -/
def modifyComponent (m : FlowMetrics) (index : ℕ) (f : ComponentMetrics → ComponentMetrics) :
    FlowMetrics :=
  { m with components := m.components.modify index f }

/-- Change the metrics of a stream. -/
def modifyStream (m : FlowMetrics) (index : ℕ) (f : StreamMetrics → StreamMetrics) :
    FlowMetrics :=
  { m with streams := m.streams.modify index f }

/-- One update. -/
def update (m : FlowMetrics) : Update → FlowMetrics
  | .increment (.total counter) delta => { m with total := increment m.total counter delta }
  | .increment (.component index counter) delta =>
      m.modifyComponent index fun c => { c with counter := increment c.counter counter delta }
  | .increment (.stream index counter) delta =>
      m.modifyStream index fun s => { s with counter := increment s.counter counter delta }
  | .setComponentGauge index gauge value =>
      m.modifyComponent index fun c => { c with gauge := Function.update c.gauge gauge value }
  | .setStreamGauge index gauge value =>
      m.modifyStream index fun s => { s with gauge := Function.update s.gauge gauge value }
  | .recordLatency value => { m with endToEndLatency := m.endToEndLatency.record value }
  | .recordProcessingTime index value =>
      m.modifyComponent index fun c => { c with processingTime := c.processingTime.record value }

/-- The metrics after a history of updates. -/
def after (m : FlowMetrics) (updates : List Update) : FlowMetrics := updates.foldl update m

/-- The value of a counter; one that does not exist has none. -/
def read (m : FlowMetrics) : CounterName → ℕ
  | .total counter => m.total counter
  | .component index counter => (m.components[index]?.map fun c => c.counter counter).getD 0
  | .stream index counter => (m.streams[index]?.map fun s => s.counter counter).getD 0

end FlowMetrics

/-! ## Snapshots -/

/-- The snapshot of the metrics of a component. -/
structure ComponentMetricsSnapshot where
  componentId : ComponentId
  counter : ComponentCounter → ℕ
  processingTimeP50Ns : Option ℕ
  processingTimeP95Ns : Option ℕ
  processingTimeP99Ns : Option ℕ
  processingTimeMeanNs : ℚ
  gauge : ComponentGauge → ℕ

/-- The snapshot of the metrics of a stream. -/
structure StreamMetricsSnapshot where
  streamId : StreamId
  counter : StreamCounter → ℕ
  gauge : StreamGauge → ℕ

/-- The snapshot of the metrics of a flow.  A percentile whose computation underflows is `none`. -/
structure FlowMetricsSnapshot where
  flowId : FlowId
  total : Total → ℕ
  latencyP50Ns : Option ℕ
  latencyP90Ns : Option ℕ
  latencyP95Ns : Option ℕ
  latencyP99Ns : Option ℕ
  latencyP999Ns : Option ℕ
  latencyMinNs : ℕ
  latencyMaxNs : ℕ
  latencyMeanNs : ℚ
  components : List ComponentMetricsSnapshot
  streams : List StreamMetricsSnapshot

/-- `HistogramSnapshot::mean`. -/
def mean (s : HistogramSnapshot) : ℚ := if s.totalCount = 0 then 0 else s.sum / s.totalCount

/-- The snapshot of a component in `snapshot_flow`. -/
def snapshotComponent (c : ComponentMetrics) : ComponentMetricsSnapshot :=
  let ptSnap := c.processingTime.snapshot
  ⟨c.componentId, c.counter, ptSnap.percentile 50, ptSnap.percentile 95, ptSnap.percentile 99,
    mean ptSnap, c.gauge⟩

/-- `snapshot_flow`. -/
def snapshotFlow (metrics : FlowMetrics) : FlowMetricsSnapshot :=
  let latencySnap := metrics.endToEndLatency.snapshot
  { flowId := metrics.flowId
    total := metrics.total
    latencyP50Ns := latencySnap.percentile 50
    latencyP90Ns := latencySnap.percentile 90
    latencyP95Ns := latencySnap.percentile 95
    latencyP99Ns := latencySnap.percentile 99
    latencyP999Ns := latencySnap.percentile 99.9
    latencyMinNs := latencySnap.min
    latencyMaxNs := latencySnap.max
    latencyMeanNs := mean latencySnap
    components := metrics.components.map snapshotComponent
    streams := metrics.streams.map fun s => ⟨s.streamId, s.counter, s.gauge⟩ }

/-- `delta`. -/
def delta (start finish : FlowMetricsSnapshot) : FlowMetricsSnapshot :=
  { finish with total := fun counter => finish.total counter - start.total counter }

namespace FlowMetricsSnapshot

/-- The value of a counter. -/
def read (s : FlowMetricsSnapshot) : CounterName → ℕ
  | .total counter => s.total counter
  | .component index counter => (s.components[index]?.map fun c => c.counter counter).getD 0
  | .stream index counter => (s.streams[index]?.map fun s => s.counter counter).getD 0

end FlowMetricsSnapshot

/-- The delta of two windows, one after the other, is the sum of their deltas. -/
def Additive (start middle finish : FlowMetricsSnapshot) : Prop :=
  ∀ name, (delta start finish).read name =
    (delta start middle).read name + (delta middle finish).read name

/-! ## What a history adds to a counter -/

/-- What an update adds to a counter. -/
def added (name : CounterName) : Update → ℕ
  | .increment name' delta => if name' = name then delta else 0
  | _ => 0

/-- What a history adds to a counter. -/
def addedBy (name : CounterName) (updates : List Update) : ℕ := (updates.map (added name)).sum

/-- The counter is one of the flow. -/
def FlowMetrics.Has (m : FlowMetrics) : CounterName → Prop
  | .total _ => True
  | .component index _ => index < m.components.length
  | .stream index _ => index < m.streams.length

theorem increment_apply {ι : Type} [DecidableEq ι] {counter : ι → ℕ} {i j : ι} {delta : ℕ}
    (hrange : counter j < 2 ^ 64) : increment counter i delta j =
      (counter j + if i = j then delta else 0) % 2 ^ 64 := by
  unfold increment
  by_cases hij : i = j
  · subst hij
    rw [Function.update_self, if_pos rfl]
  · rw [Function.update_of_ne (Ne.symm hij), if_neg hij, Nat.add_zero, Nat.mod_eq_of_lt hrange]

section Elements

variable {α ι : Type} {l : List α} {i : ℕ} {a : α} {counter : α → ι → ℕ} {j : ι}

/-- Changing one element changes what is read of it. -/
theorem getD_map_modify (ha : l[i]? = some a) (index : ℕ) (f : α → α) (g : α → ℕ) :
    ((l.modify index f)[i]?.map g).getD 0 = if index = i then g (f a) else g a := by
  rw [List.getElem?_modify, ha]
  split_ifs
  · simp
  · simp

/-- Counting in one element. -/
theorem getD_modify_increment [DecidableEq ι] (ha : l[i]? = some a)
    (hrange : counter a j < 2 ^ 64) {f : α → α} {j' : ι} {delta : ℕ} (hf : counter (f a) = increment (counter a) j' delta)
    (index : ℕ) : ((l.modify index f)[i]?.map fun a => counter a j).getD 0 =
      (counter a j + if index = i ∧ j' = j then delta else 0) % 2 ^ 64 := by
  rw [getD_map_modify ha]
  by_cases hindex : index = i
  · rw [if_pos hindex, hf, increment_apply hrange]
    simp only [hindex, true_and]
  · rw [if_neg hindex, if_neg (fun h => hindex h.1), Nat.add_zero, Nat.mod_eq_of_lt hrange]

/-- A change that leaves the counters as they are. -/
theorem getD_modify_same (ha : l[i]? = some a) (hrange : counter a j < 2 ^ 64) {f : α → α}
    (hf : counter (f a) = counter a) (index : ℕ) :
    ((l.modify index f)[i]?.map fun a => counter a j).getD 0 = (counter a j + 0) % 2 ^ 64 := by
  rw [getD_map_modify ha, hf, ite_self, Nat.add_zero, Nat.mod_eq_of_lt hrange]

end Elements

variable {m : FlowMetrics} {name : CounterName}

theorem has_update (u : Update) : (m.update u).Has name ↔ m.Has name := by
  have hcomponents : (m.update u).components.length = m.components.length := by
    cases u with
    | increment name delta =>
        cases name with
        | component index counter => exact List.length_modify _ _ _
        | _ => rfl
    | setComponentGauge index gauge value => exact List.length_modify _ _ _
    | recordProcessingTime index value => exact List.length_modify _ _ _
    | _ => rfl
  have hstreams : (m.update u).streams.length = m.streams.length := by
    cases u with
    | increment name delta =>
        cases name with
        | stream index counter => exact List.length_modify _ _ _
        | _ => rfl
    | setStreamGauge index gauge value => exact List.length_modify _ _ _
    | _ => rfl
  cases name with
  | total counter => exact Iff.rfl
  | component index counter =>
      show index < _ ↔ index < _
      rw [hcomponents]
  | stream index counter =>
      show index < _ ↔ index < _
      rw [hstreams]

theorem read_update_total {counter : Total} (hrange : m.total counter < 2 ^ 64) (u : Update) :
    (m.update u).total counter = (m.total counter + added (.total counter) u) % 2 ^ 64 := by
  have hstay : m.total counter = (m.total counter + 0) % 2 ^ 64 :=
    (Nat.mod_eq_of_lt hrange).symm
  cases u with
  | increment name delta =>
      cases name with
      | total counter' =>
          show increment m.total counter' delta counter = _
          rw [increment_apply hrange]
          simp [added]
      | component index counter' => exact hstay
      | stream index counter' => exact hstay
  | _ => exact hstay

theorem read_update_component {i : ℕ} {counter : ComponentCounter} {c : ComponentMetrics}
    (hc : m.components[i]? = some c) (hrange : c.counter counter < 2 ^ 64) (u : Update) :
    (m.update u).read (.component i counter) =
      (c.counter counter + added (.component i counter) u) % 2 ^ 64 := by
  have hsame : ∀ m' : FlowMetrics, m'.components = m.components →
      m'.read (.component i counter) = (c.counter counter + 0) % 2 ^ 64 := by
    intro m' h
    rw [FlowMetrics.read, h, hc, Nat.add_zero, Nat.mod_eq_of_lt hrange]
    rfl
  cases u with
  | increment name delta =>
      cases name with
      | total counter' => exact hsame _ rfl
      | stream index counter' => exact hsame _ rfl
      | component index counter' =>
          refine (getD_modify_increment hc hrange rfl index).trans ?_
          simp [added]
  | setComponentGauge index gauge value => exact getD_modify_same hc hrange rfl index
  | recordProcessingTime index value => exact getD_modify_same hc hrange rfl index
  | _ => exact hsame _ rfl

theorem read_update_stream {i : ℕ} {counter : StreamCounter} {s : StreamMetrics}
    (hs : m.streams[i]? = some s) (hrange : s.counter counter < 2 ^ 64) (u : Update) :
    (m.update u).read (.stream i counter) =
      (s.counter counter + added (.stream i counter) u) % 2 ^ 64 := by
  have hsame : ∀ m' : FlowMetrics, m'.streams = m.streams →
      m'.read (.stream i counter) = (s.counter counter + 0) % 2 ^ 64 := by
    intro m' h
    rw [FlowMetrics.read, h, hs, Nat.add_zero, Nat.mod_eq_of_lt hrange]
    rfl
  cases u with
  | increment name delta =>
      cases name with
      | total counter' => exact hsame _ rfl
      | component index counter' => exact hsame _ rfl
      | stream index counter' =>
          refine (getD_modify_increment hs hrange rfl index).trans ?_
          simp [added]
  | setStreamGauge index gauge value => exact getD_modify_same hs hrange rfl index
  | _ => exact hsame _ rfl

/-- **What an update does to a counter**: it adds to it, round at 64 bits. -/
theorem read_update (hhas : m.Has name) (hrange : m.read name < 2 ^ 64) (u : Update) :
    (m.update u).read name = (m.read name + added name u) % 2 ^ 64 := by
  cases name with
  | total counter => exact read_update_total hrange u
  | component i counter =>
      obtain ⟨c, hc⟩ : ∃ c, m.components[i]? = some c := ⟨_, List.getElem?_eq_getElem hhas⟩
      have hread : m.read (.component i counter) = c.counter counter := by
        simp [FlowMetrics.read, hc]
      rw [hread] at hrange ⊢
      exact read_update_component hc hrange u
  | stream i counter =>
      obtain ⟨s, hs⟩ : ∃ s, m.streams[i]? = some s := ⟨_, List.getElem?_eq_getElem hhas⟩
      have hread : m.read (.stream i counter) = s.counter counter := by
        simp [FlowMetrics.read, hs]
      rw [hread] at hrange ⊢
      exact read_update_stream hs hrange u

theorem has_after (updates : List Update) : (m.after updates).Has name ↔ m.Has name := by
  induction updates generalizing m with
  | nil => exact Iff.rfl
  | cons u updates ih => exact ih.trans (has_update u)

/-- A history adds to a counter what its updates add. -/
theorem read_after (hhas : m.Has name) (hrange : m.read name < 2 ^ 64) (updates : List Update) :
    (m.after updates).read name = (m.read name + addedBy name updates) % 2 ^ 64 := by
  induction updates generalizing m with
  | nil => exact (Nat.mod_eq_of_lt hrange).symm
  | cons u updates ih =>
      show ((m.update u).after updates).read name = _
      have hupdate := read_update hhas hrange u
      rw [ih ((has_update u).mpr hhas) (by rw [hupdate]; exact Nat.mod_lt _ (by decide)), hupdate,
        Nat.mod_add_mod, Nat.add_assoc]
      rfl

/-- A counter that does not exist reads as zero. -/
theorem read_of_not_has (hnot : ¬m.Has name) : m.read name = 0 := by
  cases name with
  | total counter => exact absurd trivial hnot
  | component index counter =>
      have hnone : m.components[index]? = none := List.getElem?_eq_none (Nat.le_of_not_lt hnot)
      rw [FlowMetrics.read, hnone]
      rfl
  | stream index counter =>
      have hnone : m.streams[index]? = none := List.getElem?_eq_none (Nat.le_of_not_lt hnot)
      rw [FlowMetrics.read, hnone]
      rfl

/-! ## Deltas -/

/-- A snapshot reads the counters. -/
theorem read_snapshotFlow (m : FlowMetrics) (name : CounterName) :
    (snapshotFlow m).read name = m.read name := by
  cases name with
  | total counter => rfl
  | component index counter =>
      simp [FlowMetricsSnapshot.read, FlowMetrics.read, snapshotFlow, snapshotComponent,
        Function.comp_def]
  | stream index counter =>
      simp [FlowMetricsSnapshot.read, FlowMetrics.read, snapshotFlow, Function.comp_def]

/-- The second of three numbers lies between the others. -/
def Between (a b c : ℕ) : Prop := (a ≤ b ∧ b ≤ c) ∨ (c ≤ b ∧ b ≤ a)

/-- The values of a counter at three snapshots for which deltas add up. -/
def AddsUp (name : CounterName) (start middle finish : ℕ) : Prop :=
  match name with
  | .total _ => Between start middle finish
  | .component _ _ | .stream _ _ => middle = 0

/-- **When deltas add up**, by the values of the counters. -/
theorem additive_iff_addsUp (start middle finish : FlowMetricsSnapshot) :
    Additive start middle finish ↔
      ∀ name, AddsUp name (start.read name) (middle.read name) (finish.read name) := by
  apply forall_congr'
  intro name
  cases name with
  | total counter =>
      show finish.total counter - start.total counter =
        middle.total counter - start.total counter + (finish.total counter - middle.total counter) ↔
        Between (start.total counter) (middle.total counter) (finish.total counter)
      unfold Between
      omega
  | component index counter =>
      show finish.read (.component index counter) = middle.read (.component index counter) +
        finish.read (.component index counter) ↔ middle.read (.component index counter) = 0
      omega
  | stream index counter =>
      show finish.read (.stream index counter) = middle.read (.stream index counter) +
        finish.read (.stream index counter) ↔ middle.read (.stream index counter) = 0
      omega

/-- **Exactly when the deltas of a history add up**: when no total has come round between the
snapshots, and nothing has been counted of the components and streams before the middle one. -/
theorem delta_additive_iff (flowId : FlowId) (componentIds : List ComponentId)
    (streamIds : List StreamId) (before toMiddle toEnd : List Update) :
    Additive (snapshotFlow ((FlowMetrics.new flowId componentIds streamIds).after before))
        (snapshotFlow ((FlowMetrics.new flowId componentIds streamIds).after (before ++ toMiddle)))
        (snapshotFlow ((FlowMetrics.new flowId componentIds streamIds).after
          (before ++ toMiddle ++ toEnd))) ↔
      ∀ name, (FlowMetrics.new flowId componentIds streamIds).Has name →
        AddsUp name (addedBy name before % 2 ^ 64) (addedBy name (before ++ toMiddle) % 2 ^ 64)
          (addedBy name (before ++ toMiddle ++ toEnd) % 2 ^ 64) := by
  have hzero : ∀ name, (FlowMetrics.new flowId componentIds streamIds).read name = 0 := by
    intro name
    cases name with
    | total counter => rfl
    | component index counter =>
        cases hget : componentIds[index]? with
        | none => simp [FlowMetrics.read, FlowMetrics.new, hget]
        | some id => simp [FlowMetrics.read, FlowMetrics.new, hget, ComponentMetrics.new]
    | stream index counter =>
        cases hget : streamIds[index]? with
        | none => simp [FlowMetrics.read, FlowMetrics.new, hget]
        | some id => simp [FlowMetrics.read, FlowMetrics.new, hget, StreamMetrics.new]
  rw [additive_iff_addsUp]
  apply forall_congr'
  intro name
  simp only [read_snapshotFlow]
  by_cases hhas : (FlowMetrics.new flowId componentIds streamIds).Has name
  · have hread : ∀ updates, ((FlowMetrics.new flowId componentIds streamIds).after updates).read
        name = addedBy name updates % 2 ^ 64 := by
      intro updates
      rw [read_after hhas (by rw [hzero]; decide), hzero, Nat.zero_add]
    rw [hread, hread, hread]
    exact ⟨fun h _ => h, fun h => h hhas⟩
  · have hread : ∀ updates, ((FlowMetrics.new flowId componentIds streamIds).after updates).read
        name = 0 := by
      intro updates
      exact read_of_not_has fun h => hhas ((has_after updates).mp h)
    rw [hread, hread, hread]
    refine iff_of_true ?_ fun h => absurd h hhas
    cases name with
    | total counter => exact .inl ⟨Nat.le_refl 0, Nat.le_refl 0⟩
    | _ => rfl

/-- A flow of one component, after increments of its invocations. -/
def invoked (counts : List ℕ) : FlowMetricsSnapshot :=
  snapshotFlow ((FlowMetrics.new ⟨1⟩ [⟨1⟩] []).after
    (counts.map (.increment (.component 0 .invocations))))

/-- Three invocations before the middle snapshot and two after it: the second window has all five,
and the two windows together have eight. -/
theorem invocations_counted_twice :
    (delta (invoked []) (invoked [3, 2])).read (.component 0 .invocations) = 5 ∧
      (delta (invoked []) (invoked [3])).read (.component 0 .invocations) = 3 ∧
      (delta (invoked [3]) (invoked [3, 2])).read (.component 0 .invocations) = 5 ∧
      ¬Additive (invoked []) (invoked [3]) (invoked [3, 2]) := by
  refine ⟨by decide, by decide, by decide, fun hadditive => ?_⟩
  exact absurd (hadditive (.component 0 .invocations)) (by decide)

end Torvyn.Observability.Metrics
