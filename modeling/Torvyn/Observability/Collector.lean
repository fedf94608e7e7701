/-
# The counters of the collector

`FlowMetrics` of `metrics/flow_metrics.rs` and the `EventSink` methods of `collector.rs` that feed
it, for one flow that is registered.  Counters are 64 bits wide and step by one, so they are kept
as unbounded numbers; histograms are left out.  What the collector knows at the end is a function
of the log: `component_observeAll` and `stream_observeAll` read it off.
-/
import Torvyn.Observability.Tracer
import Torvyn.Reactor.Hysteresis

namespace Torvyn.Observability

open Torvyn.Reactor (FlowEvent signals)

/-- `is_enabled`. -/
def ObservabilityLevel.isEnabled : ObservabilityLevel → Bool
  | .off => false
  | .production | .diagnostic => true

/-! ## Changing one entry -/

/-- Change the first entry that a search finds. -/
def modifyFound {α : Type} (p : α → Bool) (f : α → α) : List α → List α
  | [] => []
  | a :: as => if p a then f a :: as else a :: modifyFound p f as

/-- The entry that is found by its key is changed, and the others are kept. -/
theorem find?_modifyFound {α κ : Type} [DecidableEq κ] (key : α → κ) {f : α → α}
    (hkey : ∀ a, key (f a) = key a) (k k' : κ) (as : List α) :
    (modifyFound (fun a => decide (key a = k)) f as).find? (fun a => decide (key a = k')) =
      if k' = k then (as.find? fun a => decide (key a = k)).map f
      else as.find? fun a => decide (key a = k') := by
  induction as with
  | nil => simp [modifyFound]
  | cons a as ih =>
      unfold modifyFound
      by_cases ha : key a = k
      · have hfound : key (f a) = k := (hkey a).trans ha
        by_cases hk : k' = k
        · subst hk
          simp [ha, hfound]
        · have hne : ¬ k = k' := fun h => hk h.symm
          simp [ha, hfound, hk, hne]
      · rw [if_neg (by simpa using ha)]
        by_cases ha' : key a = k'
        · have hk : ¬ k' = k := fun h => ha (ha'.trans h)
          simp [ha', hk]
        · have hskip : ∀ as' : List α, (a :: as').find? (fun a => decide (key a = k')) =
              as'.find? fun a => decide (key a = k') :=
            fun as' => List.find?_cons_of_neg (by simpa using ha')
          have hskip' : (a :: as).find? (fun a => decide (key a = k)) =
              as.find? fun a => decide (key a = k) := List.find?_cons_of_neg (by simpa using ha)
          rw [hskip, hskip, hskip', ih]

/-- An entry that has been made for its key is found by it. -/
theorem find?_made {α κ : Type} [DecidableEq κ] (key : α → κ) {make : κ → α}
    (hkey : ∀ k, key (make k) = k) {k : κ} {ks : List κ} (h : k ∈ ks) :
    (ks.map make).find? (fun a => decide (key a = k)) = some (make k) := by
  induction ks with
  | nil => cases h
  | cons k' ks ih =>
      rw [List.map_cons, List.find?_cons]
      by_cases hk : k' = k
      · simp [hkey, hk]
      · have hmem : k ∈ ks := (List.mem_cons.mp h).resolve_left (Ne.symm hk)
        simp [hkey, hk, ih hmem]

namespace Collector

/-! ## The counters of a flow -/

/-- The counters of a component. -/
structure ComponentMetrics where
  componentId : ComponentId
  invocations : ℕ
  errors : ℕ
  deriving DecidableEq, Repr

/-- The counters and gauges of a stream. -/
structure StreamMetrics where
  streamId : StreamId
  elements : ℕ
  queueDepth : ℕ
  queueDepthPeak : ℕ
  backpressureEvents : ℕ
  backpressureDurationNs : ℕ
  deriving DecidableEq, Repr

/-- The counters of a flow. -/
structure FlowMetrics where
  elementsTotal : ℕ
  errorsTotal : ℕ
  components : List ComponentMetrics
  streams : List StreamMetrics
  deriving DecidableEq, Repr

/-- `ComponentMetrics::new`. -/
def ComponentMetrics.new (id : ComponentId) : ComponentMetrics := ⟨id, 0, 0⟩

/-- `StreamMetrics::new`. -/
def StreamMetrics.new (id : StreamId) : StreamMetrics := ⟨id, 0, 0, 0, 0, 0⟩

namespace FlowMetrics

/-- `FlowMetrics::new`. -/
def new (componentIds : List ComponentId) (streamIds : List StreamId) : FlowMetrics :=
  ⟨0, 0, componentIds.map .new, streamIds.map .new⟩

/-- The counters of a component. -/
def component (m : FlowMetrics) (id : ComponentId) : Option ComponentMetrics :=
  m.components.find? fun c => c.componentId = id

/-- The counters of a stream. -/
def stream (m : FlowMetrics) (id : StreamId) : Option StreamMetrics :=
  m.streams.find? fun s => s.streamId = id

/-- Change the counters of a component. -/
def modifyComponent (m : FlowMetrics) (id : ComponentId) (f : ComponentMetrics → ComponentMetrics) :
    FlowMetrics :=
  { m with components := modifyFound (fun c => c.componentId = id) f m.components }

/-- Change the counters of a stream. -/
def modifyStream (m : FlowMetrics) (id : StreamId) (f : StreamMetrics → StreamMetrics) :
    FlowMetrics :=
  { m with streams := modifyFound (fun s => s.streamId = id) f m.streams }

/-! ## The methods of the event sink -/

/-- `record_invocation`. -/
def recordInvocation (level : ObservabilityLevel) (m : FlowMetrics) (componentId : ComponentId)
    (status : InvocationStatus) : FlowMetrics :=
  if !level.isEnabled then m
  else
    let m := { m with elementsTotal := m.elementsTotal + 1 }
    match m.component componentId with
    | none => m
    | some _ =>
        let m := m.modifyComponent componentId fun c => { c with invocations := c.invocations + 1 }
        if status ≠ .ok then
          let m := m.modifyComponent componentId fun c => { c with errors := c.errors + 1 }
          { m with errorsTotal := m.errorsTotal + 1 }
        else m

/-- `record_element_transfer`. -/
def recordElementTransfer (level : ObservabilityLevel) (m : FlowMetrics) (streamId : StreamId)
    (queueDepthAfter : ℕ) : FlowMetrics :=
  if !level.isEnabled then m
  else m.modifyStream streamId fun s =>
    { s with
      elements := s.elements + 1
      queueDepth := queueDepthAfter
      queueDepthPeak := max s.queueDepthPeak queueDepthAfter }

/-- `record_backpressure`. -/
def recordBackpressure (level : ObservabilityLevel) (m : FlowMetrics) (streamId : StreamId)
    (activated : Bool) : FlowMetrics :=
  if !level.isEnabled then m
  else m.modifyStream streamId fun s =>
    if activated then { s with backpressureEvents := s.backpressureEvents + 1 } else s

/-- What the collector counts of one thing that the driver does. -/
def observe (level : ObservabilityLevel) (m : FlowMetrics) : FlowEvent → FlowMetrics
  | .recordInvocation componentId _ _ status => m.recordInvocation level componentId status
  | .recordElementTransfer streamId _ queueDepthAfter =>
      m.recordElementTransfer level streamId queueDepthAfter
  | .recordBackpressure streamId activated _ _ => m.recordBackpressure level streamId activated
  | _ => m

/-- What the collector counts of a log, if its level is `level n` when the event of index `n`
arrives. -/
def observeAll (level : ℕ → ObservabilityLevel) : ℕ → FlowMetrics → List FlowEvent → FlowMetrics
  | _, m, [] => m
  | n, m, event :: events => observeAll level (n + 1) (m.observe (level n) event) events

end FlowMetrics

/-! ## What the log says -/

/-- How the invocations of a component have ended. -/
def statuses (id : ComponentId) (events : List FlowEvent) : List InvocationStatus :=
  events.filterMap fun
    | .recordInvocation componentId _ _ status => if componentId = id then some status else none
    | _ => none

/-- The depths of the queue of a stream after the transfers that have been reported. -/
def transfers (id : StreamId) (events : List FlowEvent) : List ℕ :=
  events.filterMap fun
    | .recordElementTransfer streamId _ depth => if streamId = id then some depth else none
    | _ => none

/-- How an invocation that is reported has ended. -/
def status? : FlowEvent → Option InvocationStatus
  | .recordInvocation _ _ _ status => some status
  | _ => none

/-- The invocations that have been reported. -/
def invocations (events : List FlowEvent) : List InvocationStatus := events.filterMap status?

/-- An event that the collector counts. -/
def isReport : FlowEvent → Bool
  | .recordInvocation _ _ _ _ | .recordElementTransfer _ _ _ | .recordBackpressure _ _ _ _ => true
  | _ => false

@[simp] theorem statuses_append (id : ComponentId) (events more : List FlowEvent) :
    statuses id (events ++ more) = statuses id events ++ statuses id more := List.filterMap_append

@[simp] theorem transfers_append (id : StreamId) (events more : List FlowEvent) :
    transfers id (events ++ more) = transfers id events ++ transfers id more := List.filterMap_append

@[simp] theorem invocations_append (events more : List FlowEvent) :
    invocations (events ++ more) = invocations events ++ invocations more := List.filterMap_append

/-- Events that are not counted leave no trace. -/
theorem unreported {more : List FlowEvent} (h : ∀ ev ∈ more, isReport ev = false) :
    (∀ id, statuses id more = []) ∧ (∀ id, transfers id more = []) ∧ invocations more = [] ∧
      ∀ id, signals id more = [] := by
  have hnone : ∀ {β : Type} (f : FlowEvent → Option β), (∀ ev, isReport ev = false → f ev = none) →
      more.filterMap f = [] := by
    intro β f hf
    rw [List.filterMap_eq_nil_iff]
    exact fun ev hev => hf ev (h ev hev)
  refine ⟨fun id => hnone _ ?_, fun id => hnone _ ?_, hnone _ ?_, fun id => ?_⟩
  · intro ev hev
    cases ev with
    | recordInvocation => cases hev
    | _ => rfl
  · intro ev hev
    cases ev with
    | recordElementTransfer => cases hev
    | _ => rfl
  · intro ev hev
    cases ev with
    | recordInvocation => cases hev
    | _ => rfl
  · have hemitted : Reactor.emitted more = [] := by
      refine hnone _ fun ev hev => ?_
      cases ev with
      | recordBackpressure => cases hev
      | _ => rfl
    unfold signals
    rw [hemitted]
    rfl

/-! ## What is counted -/

namespace FlowMetrics

/-- A component that is registered starts without counts. -/
theorem component_new {componentIds : List ComponentId} (streamIds : List StreamId)
    {id : ComponentId} (h : id ∈ componentIds) :
    (new componentIds streamIds).component id = some (.new id) :=
  find?_made ComponentMetrics.componentId (fun _ => rfl) h

/-- A stream that is registered starts without counts. -/
theorem stream_new (componentIds : List ComponentId) {streamIds : List StreamId}
    {id : StreamId} (h : id ∈ streamIds) :
    (new componentIds streamIds).stream id = some (.new id) :=
  find?_made StreamMetrics.streamId (fun _ => rfl) h

@[simp] theorem component_modifyComponent {f : ComponentMetrics → ComponentMetrics}
    (hf : ∀ c, (f c).componentId = c.componentId) (m : FlowMetrics) (id id' : ComponentId) :
    (m.modifyComponent id f).component id' =
      if id' = id then (m.component id).map f else m.component id' :=
  find?_modifyFound ComponentMetrics.componentId hf id id' m.components

@[simp] theorem stream_modifyStream {f : StreamMetrics → StreamMetrics}
    (hf : ∀ s, (f s).streamId = s.streamId) (m : FlowMetrics) (id id' : StreamId) :
    (m.modifyStream id f).stream id' = if id' = id then (m.stream id).map f else m.stream id' :=
  find?_modifyFound StreamMetrics.streamId hf id id' m.streams

/-- What the counters of a component become when its invocations are reported. -/
def countComponent (c : ComponentMetrics) (ended : List InvocationStatus) : ComponentMetrics :=
  { c with
    invocations := c.invocations + ended.length
    errors := c.errors + ended.countP fun status => decide (status ≠ .ok) }

/-- What the counters of a stream become when transfers and signals are reported. -/
def countStream (s : StreamMetrics) (depths : List ℕ) (emitted : List BackpressureSignal) :
    StreamMetrics :=
  { s with
    elements := s.elements + depths.length
    queueDepth := depths.foldl (fun _ depth => depth) s.queueDepth
    queueDepthPeak := depths.foldl max s.queueDepthPeak
    backpressureEvents := s.backpressureEvents + emitted.count .pause }

section Observed

variable {level : ObservabilityLevel} (hlevel : level.isEnabled = true) (m : FlowMetrics)
include hlevel

theorem elementsTotal_observe (ev : FlowEvent) :
    (m.observe level ev).elementsTotal = m.elementsTotal + (invocations [ev]).length := by
  cases ev with
  | recordInvocation id startNs endNs status =>
      show (m.recordInvocation level id status).elementsTotal = m.elementsTotal + 1
      unfold recordInvocation
      simp only [hlevel, Bool.not_true, Bool.false_eq_true, if_false]
      split
      · rfl
      · split <;> rfl
  | recordElementTransfer id seq depth =>
      show (m.recordElementTransfer level id depth).elementsTotal = m.elementsTotal
      unfold recordElementTransfer
      split <;> rfl
  | recordBackpressure id activated depth timestampNs =>
      show (m.recordBackpressure level id activated).elementsTotal = m.elementsTotal
      unfold recordBackpressure
      split <;> rfl
  | _ => rfl

theorem component_observe (ev : FlowEvent) (id : ComponentId) :
    (m.observe level ev).component id =
      (m.component id).map fun c => countComponent c (statuses id [ev]) := by
  have hsame : m.component id = (m.component id).map fun c => countComponent c [] :=
    (congrFun Option.map_id _).symm
  cases ev with
  | recordInvocation id' startNs endNs status =>
      show (m.recordInvocation level id' status).component id = _
      unfold recordInvocation
      simp only [hlevel, Bool.not_true, Bool.false_eq_true, if_false]
      by_cases hid : id' = id
      · subst hid
        have hended : statuses id' [.recordInvocation id' startNs endNs status] = [status] := by
          simp [statuses]
        rw [hended]
        have hfind : ({ m with elementsTotal := m.elementsTotal + 1 } : FlowMetrics).component id' =
            m.component id' := rfl
        cases hc : m.component id' with
        | none =>
            rw [hfind, hc]
            exact hc
        | some c =>
            rw [hfind, hc]
            by_cases hok : status = .ok
            · subst hok
              simp [component_modifyComponent, hfind, hc, countComponent]
            · have herrors : ∀ m' : FlowMetrics, ({ m' with errorsTotal := m'.errorsTotal + 1 } :
                  FlowMetrics).component id' = m'.component id' := fun _ => rfl
              simp [component_modifyComponent, herrors, hfind, hc, countComponent, hok]
      · have hended : statuses id [.recordInvocation id' startNs endNs status] = [] := by
          simp [statuses, hid]
        rw [hended]
        refine Eq.trans ?_ hsame
        have hne : ¬ id = id' := fun h => hid h.symm
        have hfind : ({ m with elementsTotal := m.elementsTotal + 1 } : FlowMetrics).component id =
            m.component id := rfl
        split
        · rfl
        · have herrors : ∀ m' : FlowMetrics, ({ m' with errorsTotal := m'.errorsTotal + 1 } :
              FlowMetrics).component id = m'.component id := fun _ => rfl
          split <;> simp [component_modifyComponent, herrors, hfind, hne]
  | recordElementTransfer id' seq depth =>
      show (m.recordElementTransfer level id' depth).component id = _
      unfold recordElementTransfer
      split
      · exact hsame
      · exact hsame
  | recordBackpressure id' activated depth timestampNs =>
      show (m.recordBackpressure level id' activated).component id = _
      unfold recordBackpressure
      split
      · exact hsame
      · exact hsame
  | _ => exact hsame

theorem stream_observe (ev : FlowEvent) (id : StreamId) :
    (m.observe level ev).stream id =
      (m.stream id).map fun s => countStream s (transfers id [ev]) (signals id [ev]) := by
  have hsame : m.stream id = (m.stream id).map fun s => countStream s [] [] :=
    (congrFun Option.map_id _).symm
  cases ev with
  | recordInvocation id' startNs endNs status =>
      show (m.recordInvocation level id' status).stream id = _
      refine Eq.trans ?_ hsame
      unfold recordInvocation
      split
      · rfl
      · simp only
        split
        · rfl
        · split <;> rfl
  | recordElementTransfer id' seq depth =>
      show (m.recordElementTransfer level id' depth).stream id = _
      unfold recordElementTransfer
      simp only [hlevel, Bool.not_true, Bool.false_eq_true, if_false]
      have hkey : ∀ s : StreamMetrics, ({ s with
          elements := s.elements + 1
          queueDepth := depth
          queueDepthPeak := max s.queueDepthPeak depth } : StreamMetrics).streamId = s.streamId :=
        fun _ => rfl
      rw [stream_modifyStream hkey]
      have hsignals : signals id [.recordElementTransfer id' seq depth] = [] := rfl
      by_cases hid : id = id'
      · subst hid
        have hdepths : transfers id [.recordElementTransfer id seq depth] = [depth] := by
          simp [transfers]
        rw [if_pos rfl, hsignals, hdepths]
        rfl
      · have hdepths : transfers id [.recordElementTransfer id' seq depth] = [] := by
          simp [transfers, Ne.symm hid]
        rw [if_neg hid, hsignals, hdepths]
        exact hsame
  | recordBackpressure id' activated depth timestampNs =>
      show (m.recordBackpressure level id' activated).stream id = _
      unfold recordBackpressure
      simp only [hlevel, Bool.not_true, Bool.false_eq_true, if_false]
      have hkey : ∀ s : StreamMetrics, (if activated = true then
          { s with backpressureEvents := s.backpressureEvents + 1 } else s).streamId = s.streamId := by
        intro s
        split <;> rfl
      rw [stream_modifyStream hkey]
      have hdepths : transfers id [.recordBackpressure id' activated depth timestampNs] = [] := rfl
      by_cases hid : id = id'
      · subst hid
        have hsignals : signals id [.recordBackpressure id activated depth timestampNs] =
            [if activated then .pause else .ready] := by
          simp [signals, Reactor.emitted, FlowEvent.emitted?]
        rw [if_pos rfl, hdepths, hsignals]
        cases activated <;> rfl
      · have hsignals : signals id [.recordBackpressure id' activated depth timestampNs] = [] := by
          simp [signals, Reactor.emitted, FlowEvent.emitted?, Ne.symm hid]
        rw [if_neg hid, hdepths, hsignals]
        exact hsame
  | _ => exact hsame

end Observed

section ObservedAll

variable {level : ℕ → ObservabilityLevel} (hlevel : ∀ n, (level n).isEnabled = true)
include hlevel

/-- The invocations of all components are counted. -/
theorem elementsTotal_observeAll (n : ℕ) (m : FlowMetrics) (events : List FlowEvent) :
    (observeAll level n m events).elementsTotal = m.elementsTotal + (invocations events).length := by
  induction events generalizing n m with
  | nil => rfl
  | cons ev events ih =>
      rw [observeAll, ih, elementsTotal_observe (hlevel n),
        ← List.singleton_append (l := events), invocations_append, List.length_append,
        Nat.add_assoc]

/-- **The counters of a component** are read off the invocations that have been reported. -/
theorem component_observeAll (n : ℕ) (m : FlowMetrics) (events : List FlowEvent)
    (id : ComponentId) : (observeAll level n m events).component id =
      (m.component id).map fun c => countComponent c (statuses id events) := by
  induction events generalizing n m with
  | nil => exact (congrFun Option.map_id _).symm
  | cons ev events ih =>
      rw [observeAll, ih, component_observe (hlevel n), Option.map_map,
        ← List.singleton_append (l := events), statuses_append]
      congr 1
      funext c
      simp only [Function.comp, countComponent, List.length_append, List.countP_append,
        Nat.add_assoc]

/-- **The counters of a stream** are read off the transfers and the signals. -/
theorem stream_observeAll (n : ℕ) (m : FlowMetrics) (events : List FlowEvent)
    (id : StreamId) : (observeAll level n m events).stream id =
      (m.stream id).map fun s => countStream s (transfers id events) (signals id events) := by
  induction events generalizing n m with
  | nil => exact (congrFun Option.map_id _).symm
  | cons ev events ih =>
      rw [observeAll, ih, stream_observe (hlevel n), Option.map_map,
        ← List.singleton_append (l := events), transfers_append, Reactor.signals_append]
      congr 1
      funext s
      simp only [Function.comp, countStream, List.length_append, List.foldl_append,
        List.count_append, Nat.add_assoc]

end ObservedAll

end FlowMetrics

end Collector

end Torvyn.Observability
