/-
# The report of a traced run

`torvyn trace` sizes the span buffer, lets a flow run to its end, and turns the spans that the
buffer holds into a report and an OTLP document (`torvyn-cli/src/commands/trace.rs`).  The report
says what the run has recorded, element by element and without loss, unless it says that the buffer
has overflowed, and then it says the end of it (`trace_report_sound`).
-/
import Torvyn.Data.Groups
import Torvyn.Data.Hex
import Torvyn.Observability.Delta
import Torvyn.Observability.SpanWindow

namespace Torvyn.Cli

open Torvyn.Observability Torvyn.Observability.Metrics

/-! ## The size of the buffer -/

/-- `DEFAULT_SPAN_CAPACITY`. -/
def defaultSpanCapacity : ℕ := 8192

/-- `MAX_SPAN_CAPACITY`. -/
def maxSpanCapacity : ℕ := 2 ^ 20

/-- `usize::checked_next_power_of_two`. -/
def checkedNextPowerOfTwo (n : ℕ) : Option ℕ :=
  if 2 ^ Nat.clog 2 n < 2 ^ 64 then some (2 ^ Nat.clog 2 n) else none

/-- `span_capacity_for`. -/
def spanCapacityFor (limit : Option ℕ) (stageCount : ℕ) : ℕ :=
  match limit with
  | none => defaultSpanCapacity
  | some limit =>
      let wanted := min (limit * max stageCount 1) (2 ^ 64 - 1)
      let clamped := max defaultSpanCapacity (min wanted maxSpanCapacity)
      min ((checkedNextPowerOfTwo clamped).getD maxSpanCapacity) maxSpanCapacity

/-- The next power of two of a size in the range of the capacities is one of them. -/
theorem spanCapacityFor_some (limit stageCount : ℕ) : ∃ k ≤ 20,
    spanCapacityFor (some limit) stageCount = 2 ^ k ∧
      max defaultSpanCapacity (min (limit * max stageCount 1) maxSpanCapacity) ≤ 2 ^ k := by
  have hclamped : max defaultSpanCapacity
      (min (min (limit * max stageCount 1) (2 ^ 64 - 1)) maxSpanCapacity) =
        max defaultSpanCapacity (min (limit * max stageCount 1) maxSpanCapacity) := by
    unfold maxSpanCapacity
    omega
  unfold spanCapacityFor
  simp only [hclamped]
  generalize hn : max defaultSpanCapacity (min (limit * max stageCount 1) maxSpanCapacity) = n
  have hle : n ≤ 2 ^ 20 := by
    rw [← hn]
    exact max_le (by decide) (min_le_right _ _)
  have hk : Nat.clog 2 n ≤ 20 := Nat.clog_le_of_le_pow hle
  have hpow : 2 ^ Nat.clog 2 n ≤ 2 ^ 20 := Nat.pow_le_pow_right (by decide) hk
  refine ⟨Nat.clog 2 n, hk, ?_, Nat.le_pow_clog (by decide) n⟩
  rw [checkedNextPowerOfTwo, if_pos (hpow.trans_lt (by decide)), Option.getD_some]
  exact min_eq_left hpow

theorem spanCapacityFor_spec (limit : Option ℕ) (stageCount : ℕ) :
    8 ≤ spanCapacityFor limit stageCount ∧ ∃ k, spanCapacityFor limit stageCount = 2 ^ k := by
  cases limit with
  | none =>
      have hdefault : spanCapacityFor none stageCount = 2 ^ 13 := rfl
      rw [hdefault]
      exact ⟨by decide, 13, rfl⟩
  | some limit =>
      obtain ⟨k, -, hk, hle⟩ := spanCapacityFor_some limit stageCount
      have hdefault : 8 ≤ defaultSpanCapacity := by decide
      exact ⟨by rw [hk]; exact hdefault.trans ((le_max_left _ _).trans hle), k, hk⟩

/-- The buffer has room for a default number of spans, and for one span for each element and stage
up to the greatest capacity. -/
theorem le_spanCapacityFor (limit : Option ℕ) (stageCount : ℕ) :
    max defaultSpanCapacity (min (limit.getD 0 * max stageCount 1) maxSpanCapacity) ≤
      spanCapacityFor limit stageCount := by
  cases limit with
  | none =>
      rw [Option.getD_none, Nat.zero_mul]
      exact le_refl defaultSpanCapacity
  | some limit =>
      obtain ⟨k, -, hk, hle⟩ := spanCapacityFor_some limit stageCount
      rw [hk]
      exact hle

/-- The buffer accepts the capacity. -/
def ringBufferCapacity (limit : Option ℕ) (stageCount : ℕ) : RingCapacity :=
  ⟨spanCapacityFor limit stageCount, spanCapacityFor_spec limit stageCount⟩

/-! ## The report -/

/-- `ns_to_us`. -/
def nsToUs (ns : ℕ) : ℚ := ns / 1000

/-- The sum of some 64-bit numbers, which goes round. -/
def sumU64 (values : List ℕ) : ℕ := values.sum % 2 ^ 64

/-- The text of a span id. -/
def spanIdText (id : SpanId) : String := String.ofList (Hex.encode (id.bytes.map UInt8.ofBitVec))

/-- `CompactSpanRecord::duration_ns`. -/
def durationNs (record : CompactSpanRecord) : ℕ := record.endNs - record.startNs

/-- The origin sequence number of the element that a span is about. -/
def sequenceOf (record : CompactSpanRecord) : ℕ := record.elementSequence.toNat

/-- What the report says of a span. -/
structure ComponentSpan where
  component : String
  operation : String
  durationUs : ℚ
  spanId : String
  parentSpanId : String
  startUnixNano : ℕ
  endUnixNano : ℕ
  error : Bool

/-- What it says of an element. -/
structure ElementTrace where
  elementId : ℕ
  spans : List ComponentSpan
  totalLatencyUs : ℚ

/-- What it says of a stream. -/
structure StreamBackpressure where
  streamId : StreamId
  events : ℕ
  queueDepthPeak : ℕ
  stalledNs : ℕ

/-- The result of the command.  A percentile whose computation underflows is `none`. -/
structure TraceResult where
  elementsTraced : ℕ
  elementsShown : ℕ
  avgLatencyUs : ℚ
  p50LatencyUs : Option ℚ
  p99LatencyUs : Option ℚ
  totalCopies : ℕ
  totalCopyBytes : ℕ
  backpressureEvents : ℕ
  truncated : Bool
  traceId : String
  backpressureByStream : List StreamBackpressure
  traces : List ElementTrace
  flowName : String

/-- Node names and operations of the components. -/
abbrev StageNames := KeyMap ComponentId (String × String)

/-- What a traced run has produced. -/
structure TracedRun where
  flowName : String
  traceId : String
  truncated : Bool
  limit : Option ℕ
  showBackpressure : Bool
  spans : List CompactSpanRecord
  stageNames : StageNames
  snapshot : Option FlowMetricsSnapshot

/-- The report of a span. -/
def componentSpan (stageNames : StageNames) (record : CompactSpanRecord) : ComponentSpan :=
  let (name, operation) := (stageNames.lookup record.componentId).getD
    ("component-" ++ toString record.componentId.id, "invoke")
  { component := name
    operation := operation
    durationUs := nsToUs (durationNs record)
    spanId := spanIdText record.spanId
    parentSpanId := spanIdText record.parentSpanId
    startUnixNano := record.startNs
    endUnixNano := record.endNs
    error := record.isError }

/-- The report of an element. -/
def elementTrace (stageNames : StageNames) (elementId : ℕ) (records : List CompactSpanRecord) :
    ElementTrace :=
  let records := records.mergeSort fun a b => a.startNs ≤ b.startNs
  { elementId := elementId
    spans := records.map (componentSpan stageNames)
    totalLatencyUs := nsToUs (sumU64 (records.map durationNs)) }

/-- The report of the backpressure on a stream. -/
def streamBackpressure (stream : StreamMetricsSnapshot) : StreamBackpressure where
  streamId := stream.streamId
  events := stream.counter .backpressureEvents
  queueDepthPeak := stream.gauge .queueDepthPeak
  stalledNs := stream.counter .backpressureDurationNs

/-- `Vec::truncate` to a limit, if there is one. -/
def truncate {α : Type} (limit : Option ℕ) (l : List α) : List α :=
  match limit with
  | some limit => l.take limit
  | none => l

/-- `build_result`. -/
def buildResult (run : TracedRun) : TraceResult :=
  let byElement := Groups.groupBy sequenceOf run.spans
  let all := byElement.map fun (elementId, records) =>
    elementTrace run.stageNames elementId records
  let traces := truncate run.limit all
  { elementsTraced := all.length
    elementsShown := traces.length
    avgLatencyUs := (run.snapshot.map fun s => s.latencyMeanNs / 1000).getD 0
    p50LatencyUs := (run.snapshot.map fun s => s.latencyP50Ns.map nsToUs).getD (some 0)
    p99LatencyUs := (run.snapshot.map fun s => s.latencyP99Ns.map nsToUs).getD (some 0)
    totalCopies := (run.snapshot.map fun s => s.total .copiesTotal).getD 0
    totalCopyBytes := (run.snapshot.map fun s => s.total .copyBytesTotal).getD 0
    backpressureEvents := (run.snapshot.map fun s =>
      sumU64 (s.streams.map fun st => st.counter .backpressureEvents)).getD 0
    backpressureByStream :=
      if run.showBackpressure then
        (run.snapshot.map fun s => s.streams.map streamBackpressure).getD []
      else []
    truncated := run.truncated
    traceId := run.traceId
    traces := traces
    flowName := run.flowName }

/-- The part of the command that reads the collector when the flow has ended. -/
def traceFlow (collector : ObservabilityCollector) (flowId : FlowId) (run : TracedRun) :
    TraceResult :=
  -- asked before the buffer is drained, since draining resets it
  let truncated := collector.flowSpansWrapped flowId
  let spans := (collector.drainFlowSpans flowId).2
  buildResult { run with truncated, spans }

/-! ## The OTLP document -/

structure OtlpValue where
  stringValue : Option String
  intValue : Option ℤ

structure OtlpAttribute where
  key : String
  value : OtlpValue

structure OtlpStatus where
  code : ℕ
  message : Option String

structure OtlpSpan where
  traceId : String
  spanId : String
  parentSpanId : String
  name : String
  startTimeUnixNano : ℕ
  endTimeUnixNano : ℕ
  status : OtlpStatus
  attributes : List OtlpAttribute

/-- The OTLP span of a span of an element. -/
def otlpSpan (result : TraceResult) (trace : ElementTrace) (span : ComponentSpan) : OtlpSpan where
  traceId := result.traceId
  spanId := span.spanId
  parentSpanId := span.parentSpanId
  name := span.component ++ "/" ++ span.operation
  startTimeUnixNano := span.startUnixNano
  endTimeUnixNano := span.endUnixNano
  status := ⟨if span.error then 2 else 1, none⟩
  attributes := [
    ⟨"torvyn.element.sequence", ⟨none, some (BitVec.ofNat 64 trace.elementId).toInt⟩⟩,
    ⟨"torvyn.component.name", ⟨some span.component, none⟩⟩,
    ⟨"torvyn.flow.name", ⟨some result.flowName, none⟩⟩]

/-- `otlp_document`, without the envelopes of `build_export_request`. -/
def otlpDocument (result : TraceResult) : List OtlpSpan :=
  result.traces.flatMap fun trace => trace.spans.map (otlpSpan result trace)

/-! ## What a report says -/

/-- What identifies a span in a report and in a document: its id, its parent and its times. -/
structure SpanKey where
  spanId : String
  parentSpanId : String
  start : ℕ
  finish : ℕ
  deriving DecidableEq

def recordKey (record : CompactSpanRecord) : SpanKey :=
  ⟨spanIdText record.spanId, spanIdText record.parentSpanId, record.startNs, record.endNs⟩

def otlpKey (span : OtlpSpan) : SpanKey :=
  ⟨span.spanId, span.parentSpanId, span.startTimeUnixNano, span.endTimeUnixNano⟩

/-- The report is one of these spans. -/
structure ReportOf (stageNames : StageNames) (limit : Option ℕ) (spans : List CompactSpanRecord)
    (result : TraceResult) : Prop where
  /-- every element has one trace, and the traces are in the order of the elements -/
  ascending : (result.traces.map ElementTrace.elementId).Pairwise (· < ·)
  /-- a trace lists all spans of its element, in the order in which they have begun -/
  spans_eq : ∀ trace ∈ result.traces, ∃ records, records ≠ [] ∧
    records.Perm (spans.filter fun r => sequenceOf r = trace.elementId) ∧
      records.Pairwise (fun r s => r.startNs ≤ s.startNs) ∧
        trace = ⟨trace.elementId, records.map (componentSpan stageNames),
          nsToUs (sumU64 (records.map durationNs))⟩
  /-- an element is left out only if as many as the limit come before it -/
  left_out : ∀ r ∈ spans, (∀ trace ∈ result.traces, trace.elementId ≠ sequenceOf r) →
    limit = some result.traces.length ∧ ∀ trace ∈ result.traces, trace.elementId < sequenceOf r
  /-- the elements are counted, those left out too -/
  counted : result.elementsTraced = (spans.map sequenceOf).toFinset.card ∧
    result.elementsShown = result.traces.length
  /-- the document has the spans of the elements that are shown -/
  exported : ((otlpDocument result).map otlpKey).Perm
    ((spans.filter fun r => sequenceOf r ∈ result.traces.map ElementTrace.elementId).map recordKey)

section BuildResult

variable (run : TracedRun)

/-- The groups that are shown. -/
def shownGroups : List (ℕ × List CompactSpanRecord) :=
  truncate run.limit (Groups.groupBy sequenceOf run.spans)

theorem truncate_prefix {α : Type} (limit : Option ℕ) (l : List α) : truncate limit l <+: l := by
  cases limit with
  | none => exact List.prefix_rfl
  | some limit => exact List.take_prefix limit l

theorem traces_buildResult : (buildResult run).traces = (shownGroups run).map fun g =>
    elementTrace run.stageNames g.1 g.2 := by
  show truncate run.limit (List.map _ _) = _
  unfold shownGroups truncate
  cases run.limit with
  | none => rfl
  | some limit => exact List.map_take.symm

theorem elementIds_buildResult : (buildResult run).traces.map ElementTrace.elementId =
    (shownGroups run).map Prod.fst := by
  rw [traces_buildResult, List.map_map]
  rfl

theorem otlpKey_otlpDocument : (otlpDocument (buildResult run)).map otlpKey =
    (shownGroups run).flatMap fun g =>
      (g.2.mergeSort fun a b => a.startNs ≤ b.startNs).map recordKey := by
  rw [otlpDocument, traces_buildResult, List.flatMap_map, List.map_flatMap]
  apply List.flatMap_congr
  intro g _
  rw [List.map_map, elementTrace, List.map_map]
  rfl

theorem pairwise_startNs (records : List CompactSpanRecord) :
    (records.mergeSort fun a b => a.startNs ≤ b.startNs).Pairwise fun a b =>
      a.startNs ≤ b.startNs := by
  have hsorted : (records.mergeSort fun a b => a.startNs ≤ b.startNs).Pairwise fun a b =>
      decide (a.startNs ≤ b.startNs) = true := by
    apply List.pairwise_mergeSort
    · intro a b c hab hbc
      exact decide_eq_true ((of_decide_eq_true hab).trans (of_decide_eq_true hbc))
    · intro a b
      rcases le_total a.startNs b.startNs with h | h <;> simp [h]
  exact hsorted.imp fun h => of_decide_eq_true h

/-- A report says what it is given. -/
theorem reportOf_buildResult :
    ReportOf run.stageNames run.limit run.spans (buildResult run) := by
  have hgroups := Groups.grouped_groupBy sequenceOf run.spans
  have hshown : shownGroups run <+: Groups.groupBy sequenceOf run.spans :=
    truncate_prefix run.limit _
  constructor
  · rw [elementIds_buildResult]
    exact hgroups.ascending.sublist (hshown.sublist.map Prod.fst)
  · intro trace htrace
    rw [traces_buildResult] at htrace
    obtain ⟨⟨k, group⟩, hg, rfl⟩ := List.mem_map.mp htrace
    have hmem := hshown.subset hg
    have hgroup := hgroups.group_eq k group hmem
    obtain ⟨r, hr, hkey⟩ := (hgroups.mem_keys k).mp (List.mem_map_of_mem hmem)
    have hne : group ≠ [] := by
      rw [hgroup]
      exact List.ne_nil_of_mem (List.mem_filter.mpr ⟨hr, by simpa using hkey⟩)
    refine ⟨group.mergeSort fun a b => a.startNs ≤ b.startNs, ?_, ?_, ?_, rfl⟩
    · intro hnil
      apply hne
      rw [← List.length_eq_zero_iff, ← List.length_mergeSort group, hnil]
      rfl
    · exact (List.mergeSort_perm _ _).trans (List.Perm.of_eq hgroup)
    · exact pairwise_startNs group
  · intro r hr hout
    obtain ⟨rest, hrest⟩ := hshown
    have hascending := hgroups.ascending
    rw [← hrest, Groups.Ascending, List.map_append, List.pairwise_append] at hascending
    have hkey : sequenceOf r ∈ rest.map Prod.fst := by
      have hall := (hgroups.mem_keys (sequenceOf r)).mpr ⟨r, hr, rfl⟩
      rw [← hrest, List.map_append] at hall
      refine (List.mem_append.mp hall).resolve_left fun hin => ?_
      rw [← elementIds_buildResult] at hin
      obtain ⟨trace, htrace, heq⟩ := List.mem_map.mp hin
      exact hout trace htrace heq
    refine ⟨?_, fun trace htrace => ?_⟩
    · rw [traces_buildResult, List.length_map]
      have hlength := congrArg List.length hrest
      have hpos := List.length_pos_of_mem hkey
      rw [List.length_append] at hlength
      rw [List.length_map] at hpos
      unfold shownGroups truncate at hlength ⊢
      cases hlimit : run.limit with
      | none =>
          simp only [hlimit] at hlength
          omega
      | some limit =>
          simp only [hlimit, List.length_take] at hlength ⊢
          congr 1
          omega
    · refine hascending.2.2 trace.elementId ?_ _ hkey
      rw [← elementIds_buildResult]
      exact List.mem_map_of_mem htrace
  · refine ⟨?_, rfl⟩
    have hnodup : ((Groups.groupBy sequenceOf run.spans).map Prod.fst).Nodup :=
      hgroups.ascending.imp fun hlt => hlt.ne
    have hkeys : ((Groups.groupBy sequenceOf run.spans).map Prod.fst).toFinset =
        (run.spans.map sequenceOf).toFinset := by
      ext k
      rw [List.mem_toFinset, List.mem_toFinset, hgroups.mem_keys, List.mem_map]
    rw [← hkeys, List.toFinset_card_of_nodup hnodup, List.length_map]
    exact List.length_map ..
  · rw [otlpKey_otlpDocument]
    have hsort : ((shownGroups run).flatMap fun g =>
        (g.2.mergeSort fun a b => a.startNs ≤ b.startNs).map recordKey).Perm
          ((shownGroups run).flatMap fun g => g.2.map recordKey) :=
      List.Perm.flatMap_left _ fun g _ => (List.mergeSort_perm _ _).map recordKey
    refine hsort.trans ?_
    rw [elementIds_buildResult]
    have hall := (hgroups.perm hshown.sublist).map recordKey
    rwa [List.map_flatMap] at hall

end BuildResult

/-! ## What the collector has -/

section Collector

variable {flowId : FlowId} {context : FlowTraceContext}

/-- `Sampler::should_sample_head`: the last eight bytes of the trace id decide, unless the rate
does. -/
def shouldSampleHead (sampleRate : ℚ) (traceIdBytes : List (BitVec 8)) : Bool :=
  if 1 ≤ sampleRate then true
  else if sampleRate ≤ 0 then false
  else
    let hash : ℕ :=
      ((traceIdBytes.drop 8).take 8).foldr (fun byte rest => byte.toNat + 256 * rest) 0
    let threshold := ⌊sampleRate * 2 ^ 64⌋
    (hash : ℤ) ≤ threshold

/-- `new_trace_context`, as far as tracing reads the context. -/
def newTraceContext (sampleRate : ℚ) (traceIdBytes : List (BitVec 8)) (rootSpanId : SpanId) :
    FlowTraceContext := ⟨rootSpanId, shouldSampleHead sampleRate traceIdBytes⟩

/-- The sample rate of `trace_collector_config`. -/
def traceSampleRate : ℚ := 1

/-- The spans of the flow. -/
def recordedSpans (flowId : FlowId) (context : FlowTraceContext) (elements : List ElementSpan) :
    List CompactSpanRecord :=
  (elements.filter fun e => e.flowId = flowId).map fun e => e.record context

/-- The collector of the command, when the flow has run. -/
def tracedCollector (limit : Option ℕ) (stageCount : ℕ) (flowId : FlowId)
    (context : FlowTraceContext) (elements : List ElementSpan) : ObservabilityCollector :=
  ((ObservabilityCollector.new .diagnostic (ringBufferCapacity limit stageCount)).onFlowStart
    flowId context).after (elements.map .recordElementSpan)

theorem sinceDrain_pushes (spans : List CompactSpanRecord) :
    SpanRingBuffer.sinceDrain (spans.map .push) = spans := by
  induction spans using List.reverseRecOn with
  | nil => rfl
  | append_singleton spans span ih =>
      rw [List.map_append, List.map_singleton, SpanRingBuffer.sinceDrain_append, ih]
      rfl

/-- The buffer of the flow has been given the spans of the flow. -/
theorem lookup_tracedCollector (limit : Option ℕ) (stageCount : ℕ)
    (hsampled : context.sampled = true) (elements : List ElementSpan) :
    (tracedCollector limit stageCount flowId context elements).level = .diagnostic ∧
      (tracedCollector limit stageCount flowId context elements).traces.lookup flowId =
        some ⟨context, (SpanRingBuffer.new (ringBufferCapacity limit stageCount)).after
          ((recordedSpans flowId context elements).map .push)⟩ := by
  induction elements using List.reverseRecOn with
  | nil =>
      refine ⟨rfl, ?_⟩
      exact AList.lookup_insert _
  | append_singleton elements e ih =>
      obtain ⟨hlevel, hlookup⟩ := ih
      have hstep : tracedCollector limit stageCount flowId context (elements ++ [e]) =
          (tracedCollector limit stageCount flowId context elements).recordElementSpan e := by
        unfold tracedCollector ObservabilityCollector.after
        rw [List.map_append, List.foldl_append]
        rfl
      rw [hstep, ObservabilityCollector.recordElementSpan, if_neg (not_not.mpr hlevel)]
      by_cases hflow : e.flowId = flowId
      · subst hflow
        have hrecorded : recordedSpans e.flowId context (elements ++ [e]) =
            recordedSpans e.flowId context elements ++ [e.record context] := by
          unfold recordedSpans
          rw [List.filter_append, List.map_append, List.filter_singleton]
          simp
        rw [hlookup, hrecorded, List.map_append, List.map_singleton,
          SpanRingBuffer.after_append]
        simp only [hsampled, Bool.true_eq_false, if_false]
        exact ⟨hlevel, AList.lookup_insert _⟩
      · have hrecorded : recordedSpans flowId context (elements ++ [e]) =
            recordedSpans flowId context elements := by
          unfold recordedSpans
          rw [List.filter_append, List.filter_singleton]
          simp [hflow]
        rw [hrecorded]
        split
        · exact ⟨hlevel, hlookup⟩
        · split
          · exact ⟨hlevel, hlookup⟩
          · refine ⟨hlevel, ?_⟩
            show AList.lookup flowId (AList.insert e.flowId _ _) = _
            rw [AList.lookup_insert_ne (Ne.symm hflow)]
            exact hlookup

/-- What the command reads of the collector. -/
theorem traceFlow_tracedCollector (run : TracedRun) (stageCount : ℕ)
    (hsampled : context.sampled = true) (elements : List ElementSpan)
    (hfew : (recordedSpans flowId context elements).length < 2 ^ 64) :
    traceFlow (tracedCollector run.limit stageCount flowId context elements) flowId run =
      buildResult { run with
        truncated := decide (spanCapacityFor run.limit stageCount ≤
          (recordedSpans flowId context elements).length)
        spans := RingBuffer.lastOf (spanCapacityFor run.limit stageCount)
          (recordedSpans flowId context elements) } := by
  obtain ⟨-, hlookup⟩ := lookup_tracedCollector run.limit stageCount hsampled elements
  generalize recordedSpans flowId context elements = recorded at hfew hlookup ⊢
  have hpushes : (recorded.map SpanRingBuffer.Call.push).countP SpanRingBuffer.Call.isPush <
      2 ^ 64 := by
    refine List.countP_le_length.trans_lt ?_
    rwa [List.length_map]
  have hfilled := SpanRingBuffer.filled_after (ringBufferCapacity run.limit stageCount) hpushes
  rw [sinceDrain_pushes] at hfilled
  have hlength : (SpanRingBuffer.new (ringBufferCapacity run.limit stageCount)).slots.length =
      spanCapacityFor run.limit stageCount := List.length_replicate
  have hwindow := hfilled.records
  rw [SpanRingBuffer.length_slots_after, hlength] at hwindow
  have hwrapped : ((SpanRingBuffer.new (ringBufferCapacity run.limit stageCount)).after
      (recorded.map .push)).hasWrapped =
        decide (spanCapacityFor run.limit stageCount ≤ recorded.length) := by
    rw [SpanRingBuffer.hasWrapped, hfilled.writePos_eq, SpanRingBuffer.length_slots_after, hlength]
  unfold traceFlow ObservabilityCollector.flowSpansWrapped ObservabilityCollector.drainFlowSpans
  rw [hlookup]
  show buildResult { run with truncated := SpanRingBuffer.hasWrapped _, spans := _ } = _
  rw [hwrapped]
  exact congrArg (fun spans => buildResult { run with truncated := _, spans := spans }) hwindow

end Collector

/-- **The report of a traced run** is one of the last spans of the flow, as many as the buffer has
room for.  Where it does not say that it is truncated, these are all spans of the flow; and it does
not say so of a run with fewer spans than the buffer is bound to have room for. -/
theorem trace_report_sound (flowId : FlowId) (traceIdBytes : List (BitVec 8)) (rootSpanId : SpanId)
    (run : TracedRun) (stageCount : ℕ) (elements : List ElementSpan)
    (hfew : (elements.filter fun e => e.flowId = flowId).length < 2 ^ 64) :
    let context := newTraceContext traceSampleRate traceIdBytes rootSpanId
    let recorded := recordedSpans flowId context elements
    let result := traceFlow (tracedCollector run.limit stageCount flowId context elements)
      flowId run
    ∃ lost retained, recorded = lost ++ retained ∧
      ReportOf run.stageNames run.limit retained result ∧
      retained.length = min recorded.length (spanCapacityFor run.limit stageCount) ∧
      (lost ≠ [] → result.truncated = true) ∧
      (recorded.length < max defaultSpanCapacity
          (min (run.limit.getD 0 * max stageCount 1) maxSpanCapacity) →
        result.truncated = false) := by
  intro context recorded result
  have hsampled : context.sampled = true := by
    show shouldSampleHead 1 traceIdBytes = true
    rw [shouldSampleHead, if_pos (le_refl _)]
  have hlength : recorded.length < 2 ^ 64 := by
    show (List.map _ _).length < 2 ^ 64
    rwa [List.length_map]
  have hresult := traceFlow_tracedCollector run stageCount hsampled elements hlength
  have hcapacity := le_spanCapacityFor run.limit stageCount
  have hreport := reportOf_buildResult { run with
    truncated := decide (spanCapacityFor run.limit stageCount ≤ recorded.length)
    spans := RingBuffer.lastOf (spanCapacityFor run.limit stageCount) recorded }
  refine ⟨recorded.take (recorded.length - spanCapacityFor run.limit stageCount),
    RingBuffer.lastOf (spanCapacityFor run.limit stageCount) recorded,
    (List.take_append_drop _ _).symm, ?_, RingBuffer.length_lastOf _ _, fun hlost => ?_,
    fun hroom => ?_⟩
  · show ReportOf _ _ _ (traceFlow _ _ _)
    rw [hresult]
    exact hreport
  · show (traceFlow _ _ _).truncated = true
    rw [hresult]
    refine decide_eq_true (Nat.le_of_not_lt fun hlt => hlost ?_)
    rw [Nat.sub_eq_zero_of_le hlt.le, List.take_zero]
  · show (traceFlow _ _ _).truncated = false
    rw [hresult]
    exact decide_eq_false (Nat.not_le.mpr (hroom.trans_le hcapacity))

/-- Two stages see one element. -/
def oneElement : List ElementSpan := [
  ⟨⟨1⟩, ⟨⟨1⟩, 0⟩, 100, 150, .ok⟩,
  ⟨⟨1⟩, ⟨⟨2⟩, 0⟩, 200, 240, .ok⟩]

/-- The report of one element is whole. -/
theorem trace_report_sound_oneElement :
    (traceFlow (tracedCollector (some 1) 2 ⟨1⟩
      (newTraceContext traceSampleRate [] ⟨List.replicate 8 1⟩) oneElement) ⟨1⟩
      ⟨"demo", "", true, some 1, false, [], ∅, none⟩).truncated = false := by
  obtain ⟨_, _, -, -, -, -, hwhole⟩ := trace_report_sound ⟨1⟩ [] ⟨List.replicate 8 1⟩
    ⟨"demo", "", true, some 1, false, [], ∅, none⟩ 2 oneElement (by decide)
  exact hwhole (by decide)

end Torvyn.Cli
