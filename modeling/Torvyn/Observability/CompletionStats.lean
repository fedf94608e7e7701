/-
# The collector and the completion statistics

A flow is counted twice: by the driver, in the statistics it ends with, and by the collector, from
the calls of the event sink.  Only a source reports the elements that it pushes, nothing reports
how long backpressure has lasted, and what the collector counts as elements are invocations.
`metrics_agree_iff` says for which runs the two accounts agree all the same.
-/
import Torvyn.Data.GuardedRun
import Torvyn.Observability.Collector
import Torvyn.Reactor.Metrics

namespace Torvyn.Observability.Collector

open Torvyn.Reactor Torvyn.Reactor.FlowDriver

/-! ## Agreement -/

/-- What a round contributes to the number of invocations. -/
def executed (d : FlowDriver) (r : Round) : ℕ := if (d.chosen r).isSome then 1 else 0

/-- The elements that enter the flow in a round: a source has been pulled, and its stream takes
what it has produced. -/
def entered (d : FlowDriver) (r : Round) : ℕ :=
  match d.chosen r with
  | some e =>
      if e.action = .pullFromSource then
        (d.addressed r e).countP fun si => lenAt d.streams si < capacityAt d.streams si
      else 0
  | none => 0

/-- The collector's counters of a flow agree with the statistics that the flow has ended with, and
`entered` is what the collector has as the number of elements. -/
structure MetricsAgree (t : FlowTopology) (m : FlowMetrics) (stats : FlowCompletionStats)
    (entered : ℕ) : Prop where
  components : ∀ stage ∈ t.stages,
    (m.component stage.componentId).map (fun c => (c.invocations, c.errors)) =
      (stats.componentStats stage.componentId).map fun c => (c.invocations, c.errors)
  streams : ∀ si < t.connections.length,
    (m.stream ⟨si⟩).map (fun s =>
        (s.elements, s.queueDepthPeak, s.backpressureEvents, s.backpressureDurationNs)) =
      (stats.streamStats ⟨si⟩).map fun s =>
        (s.elementsTotal, s.peakQueueDepth, s.backpressureEvents, s.backpressureDuration)
  elements : m.elementsTotal = entered

/-- What the collector has counted of a run, when the flow was registered with its components and
streams before. -/
def collected (level : ℕ → ObservabilityLevel) (t : FlowTopology) (d : FlowDriver) : FlowMetrics :=
  FlowMetrics.observeAll level 0
    (.new (t.stages.map StageDefinition.componentId)
      ((List.range t.connections.length).map StreamId.mk)) d.events

/-! ## When the accounts agree -/

/-- How long a stream has been under backpressure. -/
def activeFor (s : StreamState) (now : ℕ) : ℕ :=
  match s.backpressure with
  | .active since => now - since
  | .normal => 0

/-- How long the phase of backpressure has lasted that ends for a stream after the execution of a
stage. -/
def ended (si : ℕ) (d : FlowDriver) (r : Round) : ℕ :=
  match d.chosen r, d.streams[si]? with
  | some e, some s =>
      if s.queue.len + (if si ∈ d.addressed r e then 1 else 0) ≤ s.lowWatermarkDepth then
        activeFor s r.finish
      else 0
  | _, _ => 0

/-- A round executes nothing but a source whose element finds room on its stream. -/
def Enters (d : FlowDriver) (r : Round) : Prop :=
  ∀ e, d.chosen r = some e → e.action = .pullFromSource ∧
    ∃ si ∈ d.addressed r e, lenAt d.streams si < capacityAt d.streams si

/-- A round in which the two accounts do not come apart: it executes nothing but a source whose
element finds room, and which no later stage shares its component id with, and no phase of
backpressure ends that has lasted any time. -/
structure Accounted (t : FlowTopology) (d : FlowDriver) (r : Round) : Prop where
  enters : Enters d r
  own : ∀ e, d.chosen r = some e → ∀ v stage, t.stages[v]? = some stage →
    stage.componentId = e.componentId → v ≤ e.stageIndex
  prompt : ∀ si, ended si d r = 0

/-! ## Parts that are not reported -/

/-- Between the two states no metrics change and nothing is reported. -/
structure Unreported (d d' : FlowDriver) : Prop where
  streams : d'.streams.map StreamState.metrics = d.streams.map StreamState.metrics
  components : d'.componentMetrics = d.componentMetrics
  events : ∃ more, d'.events = d.events ++ more ∧ ∀ ev ∈ more, isReport ev = false

section Unreported

variable {d d₁ d' : FlowDriver}

theorem Unreported.trans (h : Unreported d d₁) (h' : Unreported d₁ d') : Unreported d d' := by
  obtain ⟨more, hevents, hmore⟩ := h.events
  obtain ⟨more', hevents', hmore'⟩ := h'.events
  refine ⟨h'.streams.trans h.streams, h'.components.trans h.components, more ++ more', ?_, ?_⟩
  · rw [hevents', hevents, List.append_assoc]
  · intro ev hev
    exact (List.mem_append.mp hev).elim (hmore ev) (hmore' ev)

theorem Unreported.of_streams_eq (more : List FlowEvent) (hstreams : d'.streams = d.streams)
    (hcomponents : d'.componentMetrics = d.componentMetrics)
    (hevents : d'.events = d.events ++ more) (hmore : ∀ ev ∈ more, isReport ev = false) :
    Unreported d d' :=
  ⟨by rw [hstreams], hcomponents, more, hevents, hmore⟩

theorem unreported_withCancellation (d : FlowDriver) (c : FlowCancellation) :
    Unreported d (d.withCancellation c) :=
  .of_streams_eq [] rfl rfl (List.append_nil _).symm (by simp)

theorem unreported_markComplete (d : FlowDriver) (sis : List ℕ) :
    Unreported d (d.markComplete sis) := by
  refine ⟨List.ext_getElem? fun si => ?_, rfl, [], (List.append_nil _).symm, by simp⟩
  rw [List.getElem?_map, List.getElem?_map, getElem?_markComplete, Option.map_map]
  congr 1
  funext s
  simp only [Function.comp]
  split <;> rfl

theorem unreported_foldl {f : FlowDriver → ℕ → FlowDriver} (hf : ∀ d v, Unreported d (f d v))
    (vs : List ℕ) (d : FlowDriver) : Unreported d (vs.foldl f d) := by
  induction vs generalizing d with
  | nil => exact unreported_withCancellation d d.cancellation
  | cons v vs ih => exact (hf d v).trans (ih _)

theorem unreported_propagateProducerComplete (d : FlowDriver) :
    Unreported d d.propagateProducerComplete := by
  refine unreported_foldl (fun d v => ?_) _ d
  unfold propagateStage
  simp only
  split
  · exact unreported_withCancellation d d.cancellation
  · split
    · exact unreported_markComplete d _
    · exact unreported_withCancellation d d.cancellation

theorem unreported_beginDrain (d : FlowDriver) (r : Round) : Unreported d (d.beginDrain r) := by
  have hmarks : Unreported d d.markSourcesComplete := by
    refine unreported_foldl (fun d v => ?_) _ d
    unfold markSource
    split
    · exact unreported_markComplete d _
    · exact unreported_withCancellation d d.cancellation
  exact hmarks.trans (.of_streams_eq _ rfl rfl rfl (by simp [isReport]))

theorem unreported_finish (d : FlowDriver) (r : Round) : Unreported d (d.finish r) := by
  obtain ⟨more, hevents, hmore, -⟩ := d.finish_events r
  refine ⟨?_, rfl, more, hevents, fun ev hev => ?_⟩
  · show (d.streams.map StreamState.discardAll).map StreamState.metrics = _
    rw [List.map_map]
    rfl
  · rcases hmore ev hev with ⟨s, -, -, rfl⟩ | ⟨oldState, newState, rfl⟩ | ⟨stats, rfl⟩
    · rfl
    · rfl
    · rfl

/-- The log after a part that is not reported. -/
theorem Unreported.log_eq (h : Unreported d d') :
    (∀ id, statuses id d'.events = statuses id d.events) ∧
      (∀ id, transfers id d'.events = transfers id d.events) ∧
      invocations d'.events = invocations d.events ∧
      ∀ id, signals id d'.events = signals id d.events := by
  obtain ⟨more, hevents, hmore⟩ := h.events
  obtain ⟨hstatuses, htransfers, hinvocations, hsignals⟩ := unreported hmore
  rw [hevents]
  refine ⟨fun id => ?_, fun id => ?_, ?_, fun id => ?_⟩
  · rw [statuses_append, hstatuses, List.append_nil]
  · rw [transfers_append, htransfers, List.append_nil]
  · rw [invocations_append, hinvocations, List.append_nil]
  · rw [signals_append, hsignals, List.append_nil]

end Unreported

/-- **The parts of a round**: the execution of a stage and what comes after it, which is a check
of the streams or is not reported; or nothing that is reported. -/
theorem step_parts (d : FlowDriver) (r : Round) :
    (d.chosen r = none ∧ Unreported d (d.step r)) ∨
      ∃ e c, d.chosen r = some e ∧
        (Unreported ((d.withCancellation c).executeStage r e).1 (d.step r) ∨
          ∃ c', d.step r =
            (((d.withCancellation c).executeStage r e).1.withCancellation c').afterStage r) := by
  by_cases hrun : d.state = .running
  · rcases step_running hrun r with ⟨hcancel, hstep⟩ | ⟨e, c, hcancel, he, hstep⟩ | ⟨c, hnone, hstep⟩
    · left
      refine ⟨by simp only [chosen, hrun, if_pos hcancel], ?_⟩
      rw [hstep]
      exact (unreported_withCancellation d _).trans (unreported_beginDrain _ r)
    · right
      refine ⟨e, (d.cancelBy r.cancelBefore).cancellation, ?_, ?_⟩
      · simp only [chosen, hrun, hcancel, Bool.false_eq_true, if_false, he]
      · rcases hstep with hstep | hstep
        · left
          rw [hstep]
          exact (unreported_withCancellation _ c).trans (unreported_beginDrain _ r)
        · exact .inr ⟨c, hstep⟩
    · left
      refine ⟨by simp only [chosen, hrun, hnone, ite_self], ?_⟩
      have hpropagated : Unreported d (d.cancelBy r.cancelBefore).propagateProducerComplete :=
        (unreported_withCancellation d _).trans (unreported_propagateProducerComplete _)
      rcases hstep with hstep | hstep
      · rw [hstep]
        exact (hpropagated.trans (unreported_withCancellation _ c)).trans (unreported_beginDrain _ r)
      · rw [hstep]
        exact hpropagated.trans (unreported_withCancellation _ c)
  · by_cases hdrain : d.state = .draining
    · rcases step_draining hdrain r with ⟨e, hbefore, he, hstep⟩ | ⟨hidle, hstep⟩
      · right
        refine ⟨e, d.cancellation, by simp only [chosen, hdrain, if_pos hbefore, he], .inl ?_⟩
        rw [hstep]
        exact unreported_withCancellation _ _
      · left
        refine ⟨?_, ?_⟩
        · simp only [chosen, hdrain]
          split
          · exact hidle ‹_›
          · rfl
        · rw [hstep]
          exact unreported_finish d r
    · left
      rw [step_of_not_live hrun hdrain]
      refine ⟨?_, unreported_withCancellation d d.cancellation⟩
      unfold chosen
      split
      · exact absurd ‹_› hrun
      · exact absurd ‹_› hdrain
      · rfl

/-! ## One invocation for each execution -/

theorem status?_of_isOfCheck {ev : FlowEvent} (h : ev.isOfCheck = true) : status? ev = none := by
  cases ev with
  | recordInvocation => cases h
  | _ => rfl

section Invocations

variable {d d' : FlowDriver}

theorem invocations_of_events {more : List FlowEvent} (hevents : d'.events = d.events ++ more)
    (hmore : ∀ ev ∈ more, status? ev = none) : invocations d'.events = invocations d.events := by
  have hnone : invocations more = [] := List.filterMap_eq_nil_iff.mpr hmore
  rw [hevents, invocations_append, hnone, List.append_nil]

theorem invocations_pushPulled (d : FlowDriver) (r : Round) (element : OutputElement) (si : ℕ) :
    invocations (d.pushPulled r element si).events = invocations d.events := by
  cases hs : d.streams[si]? with
  | none => simp only [pushPulled, hs]
  | some s =>
      refine invocations_of_events (congrArg FlowDriver.events (pushPulled_eq r element hs))
        fun ev hev => ?_
      rcases List.mem_cons.mp hev with rfl | hev
      · rfl
      · split at hev
        · cases hev
        · obtain rfl := List.mem_singleton.mp hev
          rfl

theorem invocations_pushAll {input : StreamElementRef} (ts : List (OutputElement × ℕ))
    (d : FlowDriver) : invocations (d.pushAll input ts).events = invocations d.events := by
  induction ts generalizing d with
  | nil => rfl
  | cons t ts ih =>
      refine (ih (d.pushOutput input t.1 t.2)).trans ?_
      cases hs : d.streams[t.2]? with
      | none => simp only [pushOutput, hs]
      | some s =>
          refine invocations_of_events (congrArg FlowDriver.events (pushOutput_eq input t.1 hs))
            fun ev hev => ?_
          obtain rfl := List.mem_singleton.mp hev
          rfl

/-- An action reports no invocation. -/
theorem invocations_acted {r : Round} {e : StageExecution} (h : Acted d r e d') :
    invocations d'.events = invocations d.events := by
  have hlog : ∀ (d₁ : FlowDriver) (call : Reactor.Invocation),
      invocations (d₁.log (.invoked e.componentId call)).events = invocations d₁.events :=
    fun d₁ call => invocations_of_events rfl (by simp [status?])
  cases h with
  | starved => rfl
  | asked answer => exact hlog d _
  | exhausted sis => exact hlog d _
  | produced element si => exact (invocations_pushPulled _ r element si).trans (hlog d _)
  | processed si s elem answer ts => exact (invocations_pushAll ts _).trans (hlog _ _)
  | consumed si s elem answer latency =>
      refine invocations_of_events rfl fun ev hev => ?_
      rcases List.mem_cons.mp hev with rfl | hev
      · rfl
      · obtain ⟨n, -, rfl⟩ := List.mem_map.mp hev
        rfl

/-- **A round reports one invocation if it executes a stage, and none otherwise.** -/
theorem length_invocations_step (d : FlowDriver) (r : Round) :
    (invocations (d.step r).events).length = (invocations d.events).length + executed d r := by
  have hexecuted : ∀ c e, (invocations ((d.withCancellation c).executeStage r e).1.events).length =
      (invocations d.events).length + 1 := by
    intro c e
    have hacted := invocations_acted (executeAction_acted (d.prepared c) r e)
    obtain ⟨startNs, endNs, status, hevents⟩ := events_recordExecution
      ((d.prepared c).executeAction r e).1 r e ((d.prepared c).executeAction r e).2
    have hspan : ∀ span : Option ℕ, (span.toList.map fun seq =>
        FlowEvent.recordElementSpan e.componentId seq startNs endNs status).filterMap status? = [] := by
      rintro (- | seq) <;> rfl
    show (invocations (((d.prepared c).executeAction r e).1.recordExecution r e
      ((d.prepared c).executeAction r e).2).events).length = _
    rw [hevents, invocations_append, List.length_append, hacted]
    simp only [invocations, List.filterMap_cons, status?, List.length_cons]
    rw [hspan]
    rfl
  rcases step_parts d r with ⟨hchosen, hrest⟩ | ⟨e, c, hchosen, hrest⟩
  · rw [hrest.log_eq.2.2.1, executed, hchosen]
    rfl
  · have hsame : invocations (d.step r).events =
        invocations ((d.withCancellation c).executeStage r e).1.events := by
      rcases hrest with hrest | ⟨c', hstep⟩
      · exact hrest.log_eq.2.2.1
      · obtain ⟨more, hevents, hmore⟩ :=
          (((d.withCancellation c).executeStage r e).1.withCancellation c').afterStage_events r
        rw [hstep]
        exact invocations_of_events hevents fun ev hev => status?_of_isOfCheck (hmore ev hev)
    rw [hsame, hexecuted, executed, hchosen]
    rfl

end Invocations

/-! ## Sums over a run -/

section Sums

variable {d : FlowDriver} {rounds : List Round} {g g' : FlowDriver → Round → ℕ}

/-- What grows by a contribution of every round has grown by the sum of the contributions. -/
theorem eq_add_sumOver {X : FlowDriver → ℕ}
    (h : Guarded FlowDriver.step (fun d r => X (d.step r) = X d + g d r) d rounds) :
    X (d.run rounds) = X d + sumOver g d rounds := by
  induction rounds generalizing d with
  | nil => rfl
  | cons r rounds ih =>
      have hrest := ih h.2
      have hfirst := h.1
      rw [run_cons, sumOver]
      omega

/-- A sum is zero when no round contributes to it. -/
theorem sumOver_eq_zero_iff :
    sumOver g d rounds = 0 ↔ Guarded FlowDriver.step (fun d r => g d r = 0) d rounds := by
  induction rounds generalizing d with
  | nil => exact iff_of_true rfl trivial
  | cons r rounds ih => exact Nat.add_eq_zero_iff.trans (and_congr_right fun _ => ih)

theorem sumOver_le (hle : Guarded FlowDriver.step (fun d r => g d r ≤ g' d r) d rounds) :
    sumOver g d rounds ≤ sumOver g' d rounds := by
  induction rounds generalizing d with
  | nil => exact le_rfl
  | cons r rounds ih => exact Nat.add_le_add hle.1 (ih hle.2)

/-- Two sums of which one bounds the other term by term are equal when all their terms are. -/
theorem sumOver_eq_iff (hle : Guarded FlowDriver.step (fun d r => g d r ≤ g' d r) d rounds) :
    sumOver g d rounds = sumOver g' d rounds ↔
      Guarded FlowDriver.step (fun d r => g d r = g' d r) d rounds := by
  induction rounds generalizing d with
  | nil => exact iff_of_true rfl trivial
  | cons r rounds ih =>
      have hfirst := hle.1
      have hrest := sumOver_le hle.2
      show g d r + sumOver g (d.step r) rounds = g' d r + sumOver g' (d.step r) rounds ↔ _ ∧ _
      rw [← ih hle.2]
      omega

end Sums

/-! ## Rounds in which an element enters -/

section Enters

variable {t : FlowTopology} {d : FlowDriver} {r : Round}

/-- A source is asked for one element. -/
theorem addressed_of_pull {e : StageExecution} (haction : e.action = .pullFromSource) :
    d.addressed r e = [] ∨ ∃ element si, d.addressed r e = [si] ∧
      r.invoker.pull e.componentId = .ok (some element) ∧
        (d.streamIndex.outputs e.stageIndex).head? = some si := by
  unfold addressed
  simp only [haction]
  cases hanswer : r.invoker.pull e.componentId with
  | error | timeout => exact .inl rfl
  | ok output =>
      cases output with
      | none => exact .inl rfl
      | some element =>
          cases hhead : (d.streamIndex.outputs e.stageIndex).head? with
          | none => exact .inl rfl
          | some si => exact .inr ⟨element, si, rfl, rfl, rfl⟩

theorem entered_le_executed (d : FlowDriver) (r : Round) : entered d r ≤ executed d r := by
  unfold entered executed
  cases d.chosen r with
  | none => exact Nat.zero_le _
  | some e =>
      simp only [Option.isSome_some, if_true]
      split
      · refine List.countP_le_length.trans ?_
        rcases addressed_of_pull ‹_› with hnone | ⟨element, si, hone, -⟩
        · rw [hnone]
          exact Nat.zero_le _
        · rw [hone]
          exact le_rfl
      · exact Nat.zero_le _

/-- An element enters in every round that executes a stage exactly if the round executes nothing
but a source whose element finds room. -/
theorem entered_eq_executed_iff : entered d r = executed d r ↔ Enters d r := by
  unfold entered executed Enters
  cases d.chosen r with
  | none => exact iff_of_true rfl fun e he => nomatch he
  | some e =>
      simp only [Option.isSome_some, if_true, Option.some.injEq, forall_eq']
      by_cases haction : e.action = .pullFromSource
      · simp only [haction, true_and]
        rcases addressed_of_pull (d := d) (r := r) haction with hnone | ⟨element, si, hone, -⟩
        · simp [hnone]
        · rw [hone]
          by_cases hroom : lenAt d.streams si < capacityAt d.streams si
          · simp [hroom]
          · simp [hroom]
      · simp [haction]

end Enters

/-- What the check of a stream makes of its metrics. -/
theorem metrics_checkBackpressure (s : StreamState) (now : ℕ) :
    (s.checkBackpressure now).2.metrics = { s.metrics with
      backpressureEvents :=
        s.metrics.backpressureEvents + (s.checkBackpressure now).1.toList.count .pause
      backpressureDuration := s.metrics.backpressureDuration +
        if s.queue.len ≤ s.lowWatermarkDepth then activeFor s now else 0 } := by
  unfold StreamState.checkBackpressure
  cases hb : s.backpressure with
  | normal =>
      have hidle : activeFor s now = 0 := by simp only [activeFor, hb]
      rw [hidle, ite_self]
      by_cases hfull : s.queue.capacity ≤ s.queue.len
      · have htransition : checkBackpressureTransition s.queue.len s.queue.capacity
            s.lowWatermarkDepth BackpressureState.normal.isActive = some true := by
          simp [checkBackpressureTransition, BackpressureState.isActive, hfull]
        simp only [htransition, BackpressureState.tryActivate]
        rfl
      · have htransition : checkBackpressureTransition s.queue.len s.queue.capacity
            s.lowWatermarkDepth BackpressureState.normal.isActive = none := by
          simp [checkBackpressureTransition, BackpressureState.isActive]
          omega
        simp only [htransition]
        rfl
  | active since =>
      have hactive : activeFor s now = now - since := by simp only [activeFor, hb]
      by_cases hlow : s.queue.len ≤ s.lowWatermarkDepth
      · have htransition : checkBackpressureTransition s.queue.len s.queue.capacity
            s.lowWatermarkDepth (BackpressureState.active since).isActive = some false := by
          simp [checkBackpressureTransition, BackpressureState.isActive, hlow]
        simp only [htransition, BackpressureState.tryDeactivate]
        rw [if_pos hlow, hactive]
        rfl
      · have htransition : checkBackpressureTransition s.queue.len s.queue.capacity
            s.lowWatermarkDepth (BackpressureState.active since).isActive = none := by
          simp [checkBackpressureTransition, BackpressureState.isActive]
          omega
        simp only [htransition]
        rw [if_neg hlow]
        rfl

/-- The check of all streams touches no component. -/
theorem componentMetrics_afterStage (d : FlowDriver) (r : Round) :
    (d.afterStage r).componentMetrics = d.componentMetrics := by
  unfold afterStage yieldCheck
  simp only
  split <;> rfl

/-- An execution is counted for its stage. -/
theorem componentMetrics_recordExecution (d : FlowDriver) (r : Round) (e : StageExecution) :
    (d.recordExecution r e (.ok ())).componentMetrics =
      d.componentMetrics.modify e.stageIndex (·.recordInvocation (r.finish - r.start) false) := by
  unfold recordExecution
  simp only
  split <;> rfl

/-- An element has entered: `d₁` is the driver before the check of the streams. -/
structure Pulled (d : FlowDriver) (r : Round) (e : StageExecution) (si : ℕ) (s s₁ : StreamState)
    (d₁ : FlowDriver) : Prop where
  addressed : d.addressed r e = [si]
  stream : d.streams[si]? = some s
  streams : d₁.streams = d.streams.set si s₁
  metrics : s₁.metrics = s.metrics.recordEnqueue (s₁.queue.len % 2 ^ 32)
  id_eq : s₁.id = s.id
  len_eq : s₁.queue.len = s.queue.len + 1
  lowWatermark : s₁.lowWatermarkDepth = s.lowWatermarkDepth
  backpressure : s₁.backpressure = s.backpressure
  context : d₁.topology = d.topology ∧ d₁.streamIndex = d.streamIndex
  components : d₁.componentMetrics =
    d.componentMetrics.modify e.stageIndex (·.recordInvocation (r.finish - r.start) false)
  statuses_eq : ∀ id, statuses id d₁.events =
    statuses id d.events ++ if e.componentId = id then [.ok] else []
  transfers_eq : ∀ id, transfers id d₁.events =
    transfers id d.events ++ if s.id = id then [s₁.queue.len % 2 ^ 32] else []
  signals_eq : ∀ id, signals id d₁.events = signals id d.events

/-- **A round in which an element enters** is in the main loop, and the streams are checked after
the source has been pulled. -/
theorem step_enters {t : FlowTopology} (ht : t.Valid) {d : FlowDriver}
    (h : d.state = .running ∨ d.state = .draining → DriverInv t d) {r : Round}
    (henters : Enters d r) {e : StageExecution} (hchosen : d.chosen r = some e) :
    ∃ si s s₁ d₁, Pulled d r e si s s₁ d₁ ∧ d.step r = d₁.afterStage r := by
  obtain ⟨haction, si, hsi, hroom⟩ := henters e hchosen
  obtain ⟨hlive, hready⟩ := ready_of_chosen hchosen
  have hinv := h hlive
  obtain ⟨stage, hstage, -, hx, -⟩ :=
    nextReady_spec ht hinv.topology hinv.streamIndex hinv.streams.wired hready r
  have hrun : d.state = .running := by
    refine hlive.resolve_right fun hdrain => ?_
    rcases hx.taken with ⟨hrole, -, -⟩ | ⟨-, -, i, -, -, htaken⟩
    · -- all outputs of a source are complete while the flow drains
      have hun := hx.unblocked
      rw [hrole] at hun
      obtain ⟨o, ho, hcan⟩ := hun
      have hopen := ((canProduceAt_iff hinv.streams.credit
        (hinv.streams.wired.lt_of_mem_outputs ho)).mp hcan).1
      rw [hinv.sources hdrain _ ((ht.inputs_eq_nil_iff hstage).mpr hrole) o ho] at hopen
      cases hopen
    · have hnone : (d.transfer r e).taken = none := by simp only [transfer, takenFrom, haction]
      rw [hnone] at htaken
      cases htaken
  rcases addressed_of_pull (d := d) (r := r) haction with hnone | ⟨element, si', hone, hanswer, hhead⟩
  · rw [hnone] at hsi
    cases hsi
  rw [hone, List.mem_singleton] at hsi
  subst hsi
  have hlt : si < d.streams.length := hinv.streams.wired.lt_of_mem_outputs
    (hx.pushed.subset (show si ∈ d.addressed r e by rw [hone]; exact List.mem_singleton_self si))
  have hs := List.getElem?_eq_getElem hlt
  generalize d.streams[si] = s at hs
  rw [lenAt_eq hs, capacityAt_eq hs] at hroom
  have hfull : ¬ s.queue.isFull = true := by
    rw [BoundedQueue.isFull_iff]
    omega
  have hcancel : (d.cancelBy r.cancelBefore).cancellation.isCancelled = false := by
    simp only [chosen, hrun] at hchosen
    split at hchosen
    · cases hchosen
    · exact Bool.eq_false_iff.mpr ‹_›
  let asked := (d.prepared (d.cancelBy r.cancelBefore).cancellation).log
    (.invoked e.componentId (.pull (.ok (some element))))
  let executed := (asked.pushPulled r element si).recordExecution r e (.ok ())
  have hexecuted : (d.cancelBy r.cancelBefore).executeStage r e = (executed, .ok ()) := by
    have hpulled : ({ d.cancelBy r.cancelBefore with currentElementSequence := none } :
        FlowDriver).executePull r e.stageIndex e.componentId =
          (asked.pushPulled r element si, .ok ()) := by
      simp only [executePull, hanswer, Answer.toExcept, log]
      have hhead : ((d.cancelBy r.cancelBefore).streamIndex.outputs e.stageIndex).head? =
          some si := hhead
      rw [hhead]
      rfl
    simp only [executeStage, executeAction, haction, hpulled]
    rfl
  have hstep : d.step r = (executed.cancelBy r.cancelDuring).afterStage r := by
    have hready : (d.cancelBy r.cancelBefore).nextReady = some e := hready
    simp only [step, hrun, iterate, hcancel, Bool.false_eq_true, if_false, hready, runStage,
      hexecuted]
  have hs' : asked.streams[si]? = some s := hs
  have hpushed := pushPulled_eq r element hs'
  simp only [if_neg hfull] at hpushed
  set elem := stamp asked.nextGlobalSequence asked.nextGlobalSequence r.timestampNs element
  have hlen : (s.emit elem).2.recordEnqueue.queue.len = s.queue.len + 1 := by
    show (s.emit elem).2.queue.len = _
    rw [s.len_emit]
    omega
  have hevents : (asked.pushPulled r element si).events = d.events ++
      [.invoked e.componentId (.pull (.ok (some element))), .pushed s.id elem (s.emit elem).1,
        .recordElementTransfer s.id asked.nextGlobalSequence
          ((s.emit elem).2.recordEnqueue.queue.len % 2 ^ 32)] := by
    rw [hpushed]
    exact List.append_assoc _ _ _
  obtain ⟨startNs, endNs, rest, hrecorded, hrest⟩ : ∃ startNs endNs, ∃ rest : List FlowEvent,
      executed.events = (asked.pushPulled r element si).events ++
        .recordInvocation e.componentId startNs endNs .ok :: rest ∧
      ∀ ev ∈ rest, isReport ev = false := by
    show ∃ startNs endNs, ∃ rest : List FlowEvent,
      ((asked.pushPulled r element si).recordExecution r e (.ok ())).events = _ ∧ _
    unfold recordExecution
    cases (asked.pushPulled r element si).currentElementSequence with
    | none => exact ⟨_, _, [], rfl, by simp⟩
    | some seq =>
        refine ⟨_, _, [.recordElementSpan e.componentId seq _ _ .ok], List.append_assoc _ _ _, ?_⟩
        simp [isReport]
  obtain ⟨hstatuses, htransfers, -, hsignals⟩ := unreported hrest
  refine ⟨si, s, (s.emit elem).2.recordEnqueue, executed.cancelBy r.cancelDuring, ?_, hstep⟩
  have hlog : (executed.cancelBy r.cancelDuring).events = d.events ++
      ([.invoked e.componentId (.pull (.ok (some element))), .pushed s.id elem (s.emit elem).1,
        .recordElementTransfer s.id asked.nextGlobalSequence
          ((s.emit elem).2.recordEnqueue.queue.len % 2 ^ 32),
        .recordInvocation e.componentId startNs endNs .ok] ++ rest) := by
    show executed.events = _
    rw [hrecorded, hevents]
    simp only [List.append_assoc, List.cons_append, List.nil_append]
  refine
    { addressed := hone
      stream := hs
      streams := ?_
      metrics := rfl
      id_eq := rfl
      len_eq := hlen
      lowWatermark := ?_
      backpressure := rfl
      context := ?_
      components := ?_
      statuses_eq := fun id => ?_
      transfers_eq := fun id => ?_
      signals_eq := fun id => ?_ }
  · show executed.streams = _
    rw [(recordExecution_frame _ r e _).1, hpushed]
    rfl
  · show s.lowWatermarkRatio.depth (s.emit elem).2.queue.capacity = _
    rw [s.capacity_emit]
    rfl
  · have hcontext : executed.context = asked.context := by
      show ((asked.pushPulled r element si).recordExecution r e (.ok ())).context = _
      rw [(recordExecution_frame _ r e _).2.1, context_pushPulled]
    exact ⟨congrArg Context.topology hcontext, congrArg Context.streamIndex hcontext⟩
  · show ((asked.pushPulled r element si).recordExecution r e (.ok ())).componentMetrics = _
    rw [componentMetrics_recordExecution, hpushed]
    rfl
  · rw [hlog, statuses_append, statuses_append, hstatuses, List.append_nil]
    by_cases hid : e.componentId = id
    · simp [statuses, hid]
    · simp [statuses, hid]
  · rw [hlog, transfers_append, transfers_append, htransfers, List.append_nil]
    by_cases hid : s.id = id
    · simp [transfers, hid]
    · simp [transfers, hid]
  · rw [hlog, signals_append, signals_append, hsignals, List.append_nil]
    exact List.append_nil _

/-! ## The two accounts along a run -/

/-- While nothing happens but that elements enter, the metrics of the streams are what has been
reported of them, and no component has failed. -/
structure Tallied (t : FlowTopology) (d : FlowDriver) : Prop where
  elements : ∀ si s, d.streams[si]? = some s →
    s.metrics.elementsTotal = (transfers ⟨si⟩ d.events).length
  peak : ∀ si s, d.streams[si]? = some s →
    s.metrics.peakQueueDepth = (transfers ⟨si⟩ d.events).foldl max 0
  events : ∀ si s, d.streams[si]? = some s →
    s.metrics.backpressureEvents = (signals ⟨si⟩ d.events).count .pause
  ok : ∀ id, ∀ status ∈ statuses id d.events, status = .ok
  errors : ∀ cm ∈ d.componentMetrics, cm.errors = 0
  length_eq : d.componentMetrics.length = t.stages.length

/-- How often the stage of index `v` has been executed, as the driver counts it. -/
def invocationsAt (v : ℕ) (d : FlowDriver) : ℕ :=
  (d.componentMetrics[v]?.map Reactor.ComponentMetrics.invocations).getD 0

/-- How long the stream of index `si` has been under backpressure, as the driver counts it. -/
def durationAt (si : ℕ) (d : FlowDriver) : ℕ :=
  (d.streams[si]?.map fun s => s.metrics.backpressureDuration).getD 0

/-- What a round contributes to the executions of a stage. -/
def executedAt (v : ℕ) (d : FlowDriver) (r : Round) : ℕ :=
  match d.chosen r with
  | some e => if e.stageIndex = v then 1 else 0
  | none => 0

/-- What a round contributes to the executions of a component. -/
def executedBy (id : ComponentId) (d : FlowDriver) (r : Round) : ℕ :=
  match d.chosen r with
  | some e => if e.componentId = id then 1 else 0
  | none => 0

section Steps

variable {t : FlowTopology} {d d' d₁ : FlowDriver} {r : Round}

theorem Unreported.getElem? (h : Unreported d d') {si : ℕ} {s' : StreamState}
    (hs' : d'.streams[si]? = some s') : ∃ s, d.streams[si]? = some s ∧ s'.metrics = s.metrics := by
  have hget := congrArg (·[si]?) h.streams
  simp only [List.getElem?_map, hs', Option.map_some] at hget
  obtain ⟨s, hs, hmetrics⟩ := Option.map_eq_some_iff.mp hget.symm
  exact ⟨s, hs, hmetrics.symm⟩

theorem Tallied.unreported (h : Tallied t d) (hrest : Unreported d d') : Tallied t d' := by
  obtain ⟨hstatuses, htransfers, -, hsignals⟩ := hrest.log_eq
  constructor
  · intro si s' hs'
    obtain ⟨s, hs, hmetrics⟩ := hrest.getElem? hs'
    rw [hmetrics, htransfers]
    exact h.elements si s hs
  · intro si s' hs'
    obtain ⟨s, hs, hmetrics⟩ := hrest.getElem? hs'
    rw [hmetrics, htransfers]
    exact h.peak si s hs
  · intro si s' hs'
    obtain ⟨s, hs, hmetrics⟩ := hrest.getElem? hs'
    rw [hmetrics, hsignals]
    exact h.events si s hs
  · intro id
    rw [hstatuses]
    exact h.ok id
  · rw [hrest.components]
    exact h.errors
  · rw [hrest.components]
    exact h.length_eq

/-- The streams between the pull and the check. -/
theorem Pulled.getElem? {e : StageExecution} {si : ℕ} {s s₁ : StreamState}
    (h : Pulled d r e si s s₁ d₁) {sj : ℕ} {s' : StreamState} (hs' : d₁.streams[sj]? = some s') :
    (sj = si ∧ s' = s₁) ∨ (sj ≠ si ∧ d.streams[sj]? = some s') := by
  have hlt := (List.getElem?_eq_some_iff.mp h.stream).1
  rw [h.streams] at hs'
  by_cases hj : si = sj
  · subst hj
    rw [List.getElem?_set_self hlt] at hs'
    exact .inl ⟨rfl, (Option.some.inj hs').symm⟩
  · rw [List.getElem?_set_ne hj] at hs'
    exact .inr ⟨Ne.symm hj, hs'⟩

/-- The signals and reports of a check. -/
theorem log_afterStage (hnumbered : d₁.Numbered) (htopology : d₁.topology = t)
    (hindex : d₁.streamIndex = .build t) :
    (∀ id, statuses id (d₁.afterStage r).events = statuses id d₁.events) ∧
      (∀ id, transfers id (d₁.afterStage r).events = transfers id d₁.events) ∧
      ∀ si, signals ⟨si⟩ (d₁.afterStage r).events = signals ⟨si⟩ d₁.events ++
        (d₁.streams[si]?.bind fun s => (s.checkBackpressure r.finish).1).toList := by
  obtain ⟨more, hevents, hmore⟩ := d₁.afterStage_events r
  obtain ⟨more', hevents', hsignals, -⟩ := d₁.afterStage_signals r hnumbered
    htopology hindex
  have hnone : ∀ {β : Type} (f : FlowEvent → Option β), (∀ ev, ev.isOfCheck = true → f ev = none) →
      more.filterMap f = [] := by
    intro β f hf
    rw [List.filterMap_eq_nil_iff]
    exact fun ev hev => hf ev (hmore ev hev)
  refine ⟨fun id => ?_, fun id => ?_, fun si => ?_⟩
  · have hstatuses : statuses id more = [] := by
      refine hnone _ fun ev hev => ?_
      cases ev with
      | recordInvocation => cases hev
      | _ => rfl
    rw [hevents, statuses_append, hstatuses, List.append_nil]
  · have htransfers : transfers id more = [] := by
      refine hnone _ fun ev hev => ?_
      cases ev with
      | recordElementTransfer => cases hev
      | _ => rfl
    rw [hevents, transfers_append, htransfers, List.append_nil]
  · rw [hevents', signals_append, hsignals]

/-- **A round in a run in which nothing happens but that elements enter.** -/
theorem step_of_enters (ht : t.Valid) (h : d.state = .running ∨ d.state = .draining → DriverInv t d)
    (henters : Enters d r) : (d.chosen r = none ∧ Unreported d (d.step r)) ∨
      ∃ e si s s₁ d₁, d.chosen r = some e ∧ Pulled d r e si s s₁ d₁ ∧
        d.step r = d₁.afterStage r := by
  rcases step_parts d r with hidle | ⟨e, -, hchosen, -⟩
  · exact .inl hidle
  · obtain ⟨si, s, s₁, d₁, hpulled, hstep⟩ := step_enters ht h henters hchosen
    exact .inr ⟨e, si, s, s₁, d₁, hchosen, hpulled, hstep⟩

/-- A stream after the check, and its metrics. -/
theorem exists_checked {sj : ℕ} {s' : StreamState}
    (hs' : (d₁.afterStage r).streams[sj]? = some s') : ∃ s, d₁.streams[sj]? = some s ∧
      s' = (s.checkBackpressure r.finish).2 := by
  rw [getElem?_afterStage] at hs'
  obtain ⟨s, hs, rfl⟩ := Option.map_eq_some_iff.mp hs'
  exact ⟨s, hs, rfl⟩

theorem Pulled.numbered {e : StageExecution} {si : ℕ} {s s₁ : StreamState}
    (h : Pulled d r e si s s₁ d₁) (hnumbered : d.Numbered) : d₁.Numbered := by
  intro sj s' hs'
  rcases h.getElem? hs' with ⟨rfl, rfl⟩ | ⟨-, hs⟩
  · exact h.id_eq.trans (hnumbered _ s h.stream)
  · exact hnumbered sj s' hs

theorem Tallied.step (ht : t.Valid) (hinv : d.state = .running ∨ d.state = .draining → DriverInv t d)
    (hsignalled : Signalled t d) (henters : Enters d r) (h : Tallied t d) : Tallied t (d.step r) := by
  rcases step_of_enters ht hinv henters with
    ⟨-, hidle⟩ | ⟨e, si, s, s₁, d₁, hchosen, hpulled, hstep⟩
  · exact h.unreported hidle
  rw [hstep]
  obtain ⟨hstatuses, htransfers, hsignals⟩ := log_afterStage (r := r)
    (hpulled.numbered hsignalled.numbered) (hpulled.context.1.trans hsignalled.topology)
    (hpulled.context.2.trans hsignalled.streamIndex)
  have hid : s.id = ⟨si⟩ := hsignalled.numbered si s hpulled.stream
  constructor
  · intro sj s' hs'
    obtain ⟨s₂, hs₂, rfl⟩ := exists_checked hs'
    rw [metrics_checkBackpressure, htransfers, hpulled.transfers_eq, hid]
    rcases hpulled.getElem? hs₂ with ⟨rfl, rfl⟩ | ⟨hne, hs⟩
    · rw [hpulled.metrics, if_pos rfl, List.length_append, ← h.elements _ s hpulled.stream]
      rfl
    · rw [if_neg (fun h => hne (StreamId.mk.inj h).symm), List.append_nil]
      exact h.elements sj s₂ hs
  · intro sj s' hs'
    obtain ⟨s₂, hs₂, rfl⟩ := exists_checked hs'
    rw [metrics_checkBackpressure, htransfers, hpulled.transfers_eq, hid]
    rcases hpulled.getElem? hs₂ with ⟨rfl, rfl⟩ | ⟨hne, hs⟩
    · rw [hpulled.metrics, if_pos rfl, List.foldl_append, ← h.peak _ s hpulled.stream]
      show (if _ > _ then _ else _) = max _ _
      split <;> omega
    · rw [if_neg (fun h => hne (StreamId.mk.inj h).symm), List.append_nil]
      exact h.peak sj s₂ hs
  · intro sj s' hs'
    obtain ⟨s₂, hs₂, rfl⟩ := exists_checked hs'
    rw [metrics_checkBackpressure, hsignals, hpulled.signals_eq, hs₂, Option.bind_some,
      List.count_append]
    rcases hpulled.getElem? hs₂ with ⟨rfl, rfl⟩ | ⟨hne, hs⟩
    · rw [hpulled.metrics, ← h.events _ s hpulled.stream]
      rfl
    · rw [← h.events sj s₂ hs]
  · intro id status hmem
    rw [hstatuses, hpulled.statuses_eq, List.mem_append] at hmem
    rcases hmem with hold | hnew
    · exact h.ok id status hold
    · split at hnew
      · exact List.mem_singleton.mp hnew
      · cases hnew
  · intro cm hcm
    rw [componentMetrics_afterStage, hpulled.components] at hcm
    obtain ⟨v, hv⟩ := List.mem_iff_getElem?.mp hcm
    rw [List.getElem?_modify] at hv
    obtain ⟨cm₀, hcm₀, rfl⟩ := Option.map_eq_some_iff.mp hv
    have hzero := h.errors cm₀ (List.mem_of_getElem? hcm₀)
    split
    · exact hzero
    · exact hzero
  · rw [componentMetrics_afterStage, hpulled.components, List.length_modify]
    exact h.length_eq

/-- **What a round adds to the counts**: an execution to a stage and to its component, and the
length of the phases of backpressure that end. -/
theorem counts_step_of_enters (ht : t.Valid)
    (hinv : d.state = .running ∨ d.state = .draining → DriverInv t d) (hsignalled : Signalled t d)
    (henters : Enters d r) (h : Tallied t d) :
    (∀ v < t.stages.length, invocationsAt v (d.step r) = invocationsAt v d + executedAt v d r) ∧
      (∀ id, (statuses id (d.step r).events).length =
        (statuses id d.events).length + executedBy id d r) ∧
      ∀ si, durationAt si (d.step r) = durationAt si d + ended si d r := by
  rcases step_of_enters ht hinv henters with
    ⟨hchosen, hidle⟩ | ⟨e, si, s, s₁, d₁, hchosen, hpulled, hstep⟩
  · have hmetrics : ∀ sj, durationAt sj (d.step r) = durationAt sj d := by
      intro sj
      have hget := congrArg (·[sj]?) hidle.streams
      simp only [List.getElem?_map] at hget
      have hsame := congrArg (fun m => (m.map Reactor.StreamMetrics.backpressureDuration).getD 0) hget
      simp only [Option.map_map] at hsame
      exact hsame
    refine ⟨fun v _ => ?_, fun id => ?_, fun sj => ?_⟩
    · rw [invocationsAt, hidle.components, executedAt, hchosen]
      rfl
    · rw [hidle.log_eq.1, executedBy, hchosen]
      rfl
    · rw [hmetrics, ended, hchosen]
      rfl
  · obtain ⟨hstatuses, -, -⟩ := log_afterStage (r := r)
      (hpulled.numbered hsignalled.numbered) (hpulled.context.1.trans hsignalled.topology)
      (hpulled.context.2.trans hsignalled.streamIndex)
    refine ⟨fun v hv => ?_, fun id => ?_, fun sj => ?_⟩
    · rw [hstep, invocationsAt, componentMetrics_afterStage, hpulled.components, executedAt, hchosen,
        List.getElem?_modify]
      have hlt : v < d.componentMetrics.length := by rw [h.length_eq]; exact hv
      rw [invocationsAt, List.getElem?_eq_getElem hlt]
      simp only [Option.map_some, Option.getD_some]
      split
      · rfl
      · rfl
    · rw [hstep, hstatuses, hpulled.statuses_eq, List.length_append, executedBy, hchosen]
      simp only
      split
      · rfl
      · rfl
    · rw [hstep, durationAt, getElem?_afterStage, Option.map_map, ended, hchosen]
      have hlt := (List.getElem?_eq_some_iff.mp hpulled.stream).1
      by_cases hj : si = sj
      · subst hj
        have hs₁ : d₁.streams[si]? = some s₁ := by
          rw [hpulled.streams]
          exact List.getElem?_set_self hlt
        have hactive : activeFor s₁ r.finish = activeFor s r.finish := by
          unfold activeFor
          rw [hpulled.backpressure]
        rw [durationAt, hs₁, hpulled.stream]
        simp only [Option.map_some, Option.getD_some, Function.comp, metrics_checkBackpressure,
          hpulled.metrics, hpulled.len_eq, hpulled.lowWatermark, hactive, hpulled.addressed,
          List.mem_singleton, if_true]
        rfl
      · have hs₁ : d₁.streams[sj]? = d.streams[sj]? := by
          rw [hpulled.streams]
          exact List.getElem?_set_ne hj
        rw [durationAt, hs₁]
        cases hs : d.streams[sj]? with
        | none => rfl
        | some s' =>
            simp only [Option.map_some, Option.getD_some, Function.comp, metrics_checkBackpressure,
              hpulled.addressed, List.mem_singleton, Ne.symm hj, if_false, Nat.add_zero]

end Steps

/-! ## The statistics at the end -/

section Shown

/-- The last entry of a key is the one that is found. -/
theorem foldl_update_eq {κ β : Type} [DecidableEq κ] {l : List (κ × β)} {i : ℕ} {k : κ} {b : β}
    (h : l[i]? = some (k, b)) (hlast : ∀ (j : ℕ) (p : κ × β), l[j]? = some p → p.1 = k → j ≤ i)
    (f : κ → Option β) :
    (l.foldl (fun (f : κ → Option β) (p : κ × β) => Function.update f p.1 (some p.2)) f) k =
      some b := by
  induction l using List.reverseRecOn with
  | nil => cases h
  | append_singleton l p ih =>
      rw [List.foldl_append, List.foldl_cons, List.foldl_nil]
      have hend : (l ++ [p])[l.length]? = some p := by simp
      by_cases hi : i = l.length
      · subst hi
        obtain rfl := Option.some.inj (h.symm.trans hend)
        exact Function.update_self _ _ _
      · have hlt : i < l.length := by
          have := (List.getElem?_eq_some_iff.mp h).1
          rw [List.length_append, List.length_singleton] at this
          omega
        have hne : k ≠ p.1 := by
          intro hk
          have := hlast l.length p hend hk.symm
          omega
        rw [Function.update_of_ne hne]
        apply ih
        · rwa [List.getElem?_append_left hlt] at h
        · intro j q hq hk
          have hj := (List.getElem?_eq_some_iff.mp hq).1
          exact hlast j q ((List.getElem?_append_left hj).trans hq) hk

theorem aggregateFromStreams_eq (stats : FlowCompletionStats)
    (l : List (StreamId × Reactor.StreamMetrics)) :
    (stats.aggregateFromStreams l).streamStats =
        l.foldl (fun (f : StreamId → Option Reactor.StreamMetrics) (p : StreamId × _) =>
          Function.update f p.1 (some p.2)) stats.streamStats ∧
      (stats.aggregateFromStreams l).componentStats = stats.componentStats := by
  induction l generalizing stats with
  | nil => exact ⟨rfl, rfl⟩
  | cons p l ih => exact ih _

theorem insertComponents_eq (stats : FlowCompletionStats)
    (l : List (StageDefinition × Reactor.ComponentMetrics)) :
    (l.foldl (fun stats (stage, cm) => stats.insertComponent stage.componentId cm) stats).streamStats =
        stats.streamStats ∧
      (l.foldl (fun stats (stage, cm) => stats.insertComponent stage.componentId cm)
          stats).componentStats =
        (l.map fun p => (p.1.componentId, p.2)).foldl
          (fun (f : ComponentId → Option Reactor.ComponentMetrics) (p : ComponentId × _) =>
            Function.update f p.1 (some p.2)) stats.componentStats := by
  induction l generalizing stats with
  | nil => exact ⟨rfl, rfl⟩
  | cons p l ih => exact ih _

/-- The statistics show the metrics of every stream, and for every component those of its last
stage. -/
structure Shows (d : FlowDriver) (stats : FlowCompletionStats) : Prop where
  streams : ∀ (si : ℕ) (s : StreamState), d.streams[si]? = some s →
    stats.streamStats ⟨si⟩ = some s.metrics
  components : ∀ (v : ℕ) (stage : StageDefinition) (cm : Reactor.ComponentMetrics),
    d.topology.stages[v]? = some stage → d.componentMetrics[v]? = some cm →
    (∀ (w : ℕ) (stage' : StageDefinition), d.topology.stages[w]? = some stage' →
      stage'.componentId = stage.componentId → w ≤ v) →
    stats.componentStats stage.componentId = some cm

variable {d : FlowDriver}

/-- The statistics that the driver makes. -/
theorem shows_completionStats (hnumbered : d.Numbered) (r : Round) :
    Shows d (d.completionStats r) := by
  unfold completionStats
  constructor
  · intro si s hs
    rw [(insertComponents_eq _ _).1, (aggregateFromStreams_eq _ _).1]
    apply foldl_update_eq
    · rw [List.getElem?_map, hs, Option.map_some, hnumbered si s hs]
    · intro sj p hp hkey
      rw [List.getElem?_map] at hp
      obtain ⟨s', hs', rfl⟩ := Option.map_eq_some_iff.mp hp
      have hsame : sj = si := StreamId.mk.inj ((hnumbered sj s' hs').symm.trans hkey)
      exact hsame.le
  · intro v stage cm hstage hcm hlast
    rw [(insertComponents_eq _ _).2]
    apply foldl_update_eq
    · have hzip : (d.topology.stages.zip d.componentMetrics)[v]? = some (stage, cm) :=
        List.getElem?_zip_eq_some.mpr ⟨hstage, hcm⟩
      rw [List.getElem?_map, hzip, Option.map_some]
    · intro w p hp hkey
      rw [List.getElem?_map] at hp
      obtain ⟨⟨stage', cm'⟩, hzip, rfl⟩ := Option.map_eq_some_iff.mp hp
      exact hlast w stage' (List.getElem?_zip_eq_some.mp hzip).1 hkey

end Shown

/-- The statistics are logged when the run ends, and show the metrics that it ends with. -/
structure Concluded (d : FlowDriver) : Prop where
  live : d.state = .running ∨ d.state = .draining → ∀ stats, .flowCompleted stats ∉ d.events
  stats : ∀ stats, .flowCompleted stats ∈ d.events → Shows d stats

section Concluded

variable {d : FlowDriver} {r : Round}

theorem events_beginDrain (d : FlowDriver) (r : Round) :
    (d.beginDrain r).events = d.events ++ [.flowStateChanged .running .draining] := by
  have hmarks : d.markSourcesComplete.events = d.events :=
    (foldl_markSource (List.range d.topology.stages.length) d).2.1
  show d.markSourcesComplete.events ++ _ = _
  rw [hmarks]

/-- The statistics are logged by nothing but the end of a run. -/
theorem flowCompleted_step {stats : FlowCompletionStats}
    (hmem : .flowCompleted stats ∈ (d.step r).events) (hnew : .flowCompleted stats ∉ d.events) :
    d.state = .draining ∧ d.step r = d.finish r ∧ stats = d.forceDrain.completionStats r := by
  have hstage : ∀ (d : FlowDriver) (e : StageExecution),
      .flowCompleted stats ∈ (d.executeStage r e).1.events → .flowCompleted stats ∈ d.events := by
    intro d e h
    obtain ⟨more, hevents, hmore⟩ := stageLogged_executeStage d r e
    rw [hevents, List.mem_append] at h
    exact h.resolve_right fun hin => nomatch hmore _ hin
  have hdrain : ∀ d : FlowDriver,
      .flowCompleted stats ∈ (d.beginDrain r).events → .flowCompleted stats ∈ d.events := by
    intro d h
    rw [events_beginDrain, List.mem_append] at h
    exact h.resolve_right (by simp)
  have hcheck : ∀ d : FlowDriver,
      .flowCompleted stats ∈ (d.afterStage r).events → .flowCompleted stats ∈ d.events := by
    intro d h
    obtain ⟨more, hevents, hmore⟩ := d.afterStage_events r
    rw [hevents, List.mem_append] at h
    exact h.resolve_right fun hin => nomatch hmore _ hin
  have hidle : ∀ d : FlowDriver, d.propagateProducerComplete.events = d.events :=
    fun d => (foldl_propagateStage_frame _ d).2
  by_cases hrun : d.state = .running
  · refine absurd ?_ hnew
    rcases step_running hrun r with ⟨-, hstep⟩ | ⟨e, c, -, -, hstep⟩ | ⟨c, -, hstep⟩
    · rw [hstep] at hmem
      exact hdrain (d.cancelBy r.cancelBefore) hmem
    · apply hstage (d.cancelBy r.cancelBefore) e
      rcases hstep with hstep | hstep
      · rw [hstep] at hmem
        exact hdrain (((d.cancelBy r.cancelBefore).executeStage r e).1.withCancellation c) hmem
      · rw [hstep] at hmem
        exact hcheck (((d.cancelBy r.cancelBefore).executeStage r e).1.withCancellation c) hmem
    · have hmem : .flowCompleted stats ∈
          (d.cancelBy r.cancelBefore).propagateProducerComplete.events := by
        rcases hstep with hstep | hstep
        · rw [hstep] at hmem
          exact hdrain ((d.cancelBy r.cancelBefore).propagateProducerComplete.withCancellation c) hmem
        · rw [hstep] at hmem
          exact hmem
      rw [hidle] at hmem
      exact hmem
  · by_cases hdraining : d.state = .draining
    · rcases step_draining hdraining r with ⟨e, -, -, hstep⟩ | ⟨-, hstep⟩
      · rw [hstep] at hmem
        exact absurd (hstage d e hmem) hnew
      · refine ⟨hdraining, hstep, ?_⟩
        rw [hstep] at hmem
        have hfinish : (d.finish r).events = d.events ++ ((d.streams.filterMap fun s =>
            if s.queue.drainAll.1.isEmpty then none else some (.discarded s.id s.queue.drainAll.1)) ++
            [.flowStateChanged .draining (terminalState d.drainReason),
              .flowCompleted (d.forceDrain.completionStats r)]) := by
          show d.events ++ _ ++ [_] ++ [_] = _
          simp only [List.append_assoc, List.cons_append, List.nil_append]
          rfl
        rw [hfinish, List.mem_append] at hmem
        rcases List.mem_append.mp (hmem.resolve_left hnew) with hdiscard | hlast
        · obtain ⟨s, -, hs⟩ := List.mem_filterMap.mp hdiscard
          split at hs
          · cases hs
          · cases hs
        · simpa using hlast
    · rw [step_of_not_live hrun hdraining] at hmem
      exact absurd hmem hnew

theorem Concluded.step (h : Concluded d) (hnumbered : d.Numbered) : Concluded (d.step r) := by
  by_cases hlive : d.state = .running ∨ d.state = .draining
  · have hnew : ∀ {stats}, .flowCompleted stats ∈ (d.step r).events →
        d.step r = d.finish r ∧ stats = d.forceDrain.completionStats r := fun hmem =>
      (flowCompleted_step hmem (h.live hlive _)).2
    constructor
    · intro hstill stats hmem
      rw [(hnew hmem).1] at hstill
      obtain ⟨hrun, hdrain⟩ := d.not_live_finish r
      exact hstill.elim hrun hdrain
    · intro stats hmem
      obtain ⟨hstep, rfl⟩ := hnew hmem
      have hdiscarded : d.forceDrain.Numbered := by
        intro si s' hs'
        have hs' : (d.streams.map StreamState.discardAll)[si]? = some s' := hs'
        rw [List.getElem?_map] at hs'
        obtain ⟨s, hs, rfl⟩ := Option.map_eq_some_iff.mp hs'
        exact hnumbered si s hs
      obtain ⟨hstreams, hcomponents⟩ := shows_completionStats hdiscarded r
      rw [hstep]
      exact ⟨hstreams, hcomponents⟩
  · rw [not_or] at hlive
    rw [step_of_not_live hlive.1 hlive.2]
    exact h

end Concluded

/-! ## Runs -/

section Runs

variable (f : SpawnedFlow)

theorem concluded_run (rounds : List Round) : Concluded (f.run rounds) := by
  induction rounds using List.reverseRecOn with
  | nil =>
      have hnone : ∀ stats, .flowCompleted stats ∉ f.start.events := by
        intro stats hmem
        rcases List.mem_cons.mp hmem with h | h
        · cases h
        · cases h
      exact ⟨fun _ => hnone, fun stats hmem => absurd hmem (hnone stats)⟩
  | append_singleton rounds r ih =>
      rw [f.run_snoc rounds r]
      exact ih.step (f.signalled_run rounds).numbered

theorem tallied_start : Tallied f.config.topology f.start := by
  obtain ⟨-, hspec⟩ := spawnStreamsFrom_spec f.built
  have hmetrics : ∀ (si : ℕ) (s : StreamState), f.start.streams[si]? = some s →
      s.metrics = .new := fun si s hs => (hspec si s hs).2.2.2.2.2
  constructor
  · intro si s hs
    rw [hmetrics si s hs]
    rfl
  · intro si s hs
    rw [hmetrics si s hs]
    rfl
  · intro si s hs
    rw [hmetrics si s hs]
    rfl
  · intro id status hmem
    cases hmem
  · intro cm hcm
    rw [List.eq_of_mem_replicate hcm]
    rfl
  · exact List.length_replicate

end Runs

/-- What is known of a round while nothing happens but that elements enter. -/
structure Counting (t : FlowTopology) (d : FlowDriver) (r : Round) : Prop where
  enters : Enters d r
  inv : d.state = .running ∨ d.state = .draining → DriverInv t d
  signalled : Signalled t d
  tallied : Tallied t d

/-- The stage is the last one of its component. -/
def IsLast (t : FlowTopology) (v : ℕ) (stage : StageDefinition) : Prop :=
  t.stages[v]? = some stage ∧ ∀ (w : ℕ) (stage' : StageDefinition), t.stages[w]? = some stage' →
    stage'.componentId = stage.componentId → w ≤ v

theorem exists_isLast {t : FlowTopology} {w : ℕ} {stage : StageDefinition}
    (h : t.stages[w]? = some stage) :
    ∃ v stage', IsLast t v stage' ∧ stage'.componentId = stage.componentId := by
  classical
  let P : ℕ → Prop := fun v =>
    ∃ stage', t.stages[v]? = some stage' ∧ stage'.componentId = stage.componentId
  have hle : ∀ v, P v → v ≤ t.stages.length := by
    rintro v ⟨stage', hstage', -⟩
    exact (List.getElem?_eq_some_iff.mp hstage').1.le
  have hw : P w := ⟨stage, h, rfl⟩
  obtain ⟨stage', hstage', hid⟩ := Nat.findGreatest_spec (hle w hw) hw
  refine ⟨_, stage', ⟨hstage', fun w' stage'' hstage'' hsame => ?_⟩, hid⟩
  have hw' : P w' := ⟨stage'', hstage'', hsame.trans hid⟩
  exact Nat.le_findGreatest (hle w' hw') hw'

section Compared

variable {t : FlowTopology} {d : FlowDriver} {r : Round} {rounds : List Round}

/-- The executions of a stage are executions of its component. -/
theorem executedAt_le {v : ℕ} {stage : StageDefinition} (ht : t.Valid) (h : Counting t d r)
    (hstage : t.stages[v]? = some stage) :
    executedAt v d r ≤ executedBy stage.componentId d r := by
  unfold executedAt executedBy
  cases hchosen : d.chosen r with
  | none => exact le_rfl
  | some e =>
      obtain ⟨hlive, hready⟩ := ready_of_chosen hchosen
      have hinv := h.inv hlive
      obtain ⟨stage', hstage', hcomponent, -⟩ :=
        nextReady_spec ht hinv.topology hinv.streamIndex hinv.streams.wired hready r
      by_cases hv : e.stageIndex = v
      · rw [hv, hstage] at hstage'
        obtain rfl := Option.some.inj hstage'
        simp only [hv, hcomponent, if_true]
        exact le_rfl
      · simp only [if_neg hv]
        exact Nat.zero_le _

/-- A round executes the last stage of a component whenever it executes the component. -/
theorem own_iff (ht : t.Valid) (h : Counting t d r) :
    (∀ e, d.chosen r = some e → ∀ v stage, t.stages[v]? = some stage →
        stage.componentId = e.componentId → v ≤ e.stageIndex) ↔
      ∀ v stage, IsLast t v stage →
        executedAt v d r = executedBy stage.componentId d r := by
  unfold executedAt executedBy
  cases hchosen : d.chosen r with
  | none => exact iff_of_true (fun e he => nomatch he) fun _ _ _ => rfl
  | some e =>
      obtain ⟨hlive, hready⟩ := ready_of_chosen hchosen
      have hinv := h.inv hlive
      obtain ⟨stage', hstage', hcomponent, -⟩ :=
        nextReady_spec ht hinv.topology hinv.streamIndex hinv.streams.wired hready r
      constructor
      · intro hown v stage ⟨hstage, hlast⟩
        have hown := hown e rfl
        by_cases hid : e.componentId = stage.componentId
        · have hle := hown v stage hstage hid.symm
          have hge := hlast e.stageIndex stage' hstage' (hcomponent.symm.trans hid)
          simp only [hid, if_true]
          exact if_pos (Nat.le_antisymm hge hle)
        · have hne : e.stageIndex ≠ v := by
            intro hv
            rw [hv, hstage] at hstage'
            obtain rfl := Option.some.inj hstage'
            exact hid hcomponent
          simp only [if_neg hid, if_neg hne]
      · intro hall e' he' v stage hstage hid
        obtain rfl := Option.some.inj he'
        obtain ⟨v', last, hlast, hsame⟩ := exists_isLast hstage
        have hcounts := hall v' last hlast
        simp only [hsame.trans hid, if_true] at hcounts
        have hv' : e.stageIndex = v' := by
          by_contra hne
          rw [if_neg hne] at hcounts
          cases hcounts
        rw [hv']
        exact hlast.2 v stage hstage hsame.symm

/-- **The components agree** exactly if every component is executed at its last stage only. -/
theorem components_agree_iff {f : SpawnedFlow} {level : ℕ → ObservabilityLevel}
    (hlevel : ∀ n, (level n).isEnabled = true) {stats : FlowCompletionStats}
    (hshows : Shows (f.run rounds) stats) (hfinal : Tallied f.config.topology (f.run rounds))
    (hcounting : Guarded FlowDriver.step (Counting f.config.topology) f.start rounds) :
    (∀ stage ∈ f.config.topology.stages,
      ((collected level f.config.topology (f.run rounds)).component stage.componentId).map
          (fun c => (c.invocations, c.errors)) =
        (stats.componentStats stage.componentId).map fun c => (c.invocations, c.errors)) ↔
      ∀ v stage, IsLast f.config.topology v stage → Guarded FlowDriver.step
        (fun d r => executedAt v d r = executedBy stage.componentId d r) f.start rounds := by
  set t := f.config.topology with ht
  have htopology : (f.run rounds).topology = t := (f.signalled_run rounds).topology
  -- at a last stage the statistics show what the driver has counted there
  have hiff : ∀ v stage, IsLast t v stage →
      (((collected level t (f.run rounds)).component stage.componentId).map
          (fun c => (c.invocations, c.errors)) =
        (stats.componentStats stage.componentId).map (fun c => (c.invocations, c.errors)) ↔
      Guarded FlowDriver.step
        (fun d r => executedAt v d r = executedBy stage.componentId d r) f.start rounds) := by
    intro v stage hlast
    have hlt := (List.getElem?_eq_some_iff.mp hlast.1).1
    obtain ⟨cm, hcm⟩ : ∃ cm, (f.run rounds).componentMetrics[v]? = some cm :=
      ⟨_, List.getElem?_eq_getElem (lt_of_lt_of_eq hlt hfinal.length_eq.symm)⟩
    have hstats := hshows.components v stage cm (htopology.symm ▸ hlast.1) hcm
      (htopology.symm ▸ hlast.2)
    have herrors : cm.errors = 0 := hfinal.errors cm (List.mem_of_getElem? hcm)
    have hok : (statuses stage.componentId (f.run rounds).events).countP
        (fun status => decide (status ≠ .ok)) = 0 := by
      rw [List.countP_eq_zero]
      intro status hmem
      simp [hfinal.ok stage.componentId status hmem]
    have hregistered := FlowMetrics.component_new ((List.range t.connections.length).map .mk)
      (List.mem_map_of_mem (f := StageDefinition.componentId) (List.mem_of_getElem? hlast.1))
    have hcollected : (collected level t (f.run rounds)).component stage.componentId =
        some (FlowMetrics.countComponent (.new stage.componentId)
          (statuses stage.componentId (f.run rounds).events)) := by
      unfold collected
      rw [FlowMetrics.component_observeAll hlevel, hregistered, Option.map_some]
    have hinvocations : cm.invocations = sumOver (executedAt v) f.start rounds := by
      have hsum := eq_add_sumOver (X := invocationsAt v) (g := executedAt v)
        (hcounting.mono fun d r h =>
          (counts_step_of_enters f.valid h.inv h.signalled h.enters h.tallied).1 v hlt)
      have hstart : invocationsAt v f.start = 0 := by
        show ((List.replicate _ _)[v]?.map _).getD 0 = 0
        rw [List.getElem?_replicate]
        split <;> rfl
      have hrun : (f.start.run rounds).componentMetrics[v]? = some cm := hcm
      rw [hstart, Nat.zero_add, invocationsAt, hrun] at hsum
      exact hsum
    have hreported : (statuses stage.componentId (f.run rounds).events).length =
        sumOver (executedBy stage.componentId) f.start rounds := by
      have hsum := eq_add_sumOver (X := fun d => (statuses stage.componentId d.events).length)
        (g := executedBy stage.componentId) (hcounting.mono fun d r h =>
          (counts_step_of_enters f.valid h.inv h.signalled h.enters h.tallied).2.1 _)
      exact hsum.trans (Nat.zero_add _)
    rw [hstats, hcollected, ← sumOver_eq_iff (hcounting.mono fun d r h =>
      executedAt_le f.valid h hlast.1), ← hinvocations, ← hreported]
    simp only [Option.map_some, FlowMetrics.countComponent, hok, herrors, ComponentMetrics.new,
      Nat.zero_add, Option.some.injEq, Prod.mk.injEq, and_true]
    exact eq_comm
  constructor
  · intro hall v stage hlast
    exact (hiff v stage hlast).mp (hall stage (List.mem_of_getElem? hlast.1))
  · intro hall stage hmem
    obtain ⟨w, hw⟩ := List.mem_iff_getElem?.mp hmem
    obtain ⟨v, last, hlast, hsame⟩ := exists_isLast hw
    rw [← hsame]
    exact (hiff v last hlast).mpr (hall v last hlast)

/-- **The streams agree** exactly if no phase of backpressure ends that has lasted any time. -/
theorem streams_agree_iff {f : SpawnedFlow} {level : ℕ → ObservabilityLevel}
    (hlevel : ∀ n, (level n).isEnabled = true) {stats : FlowCompletionStats}
    (hshows : Shows (f.run rounds) stats) (hfinal : Tallied f.config.topology (f.run rounds))
    (hcounting : Guarded FlowDriver.step (Counting f.config.topology) f.start rounds) :
    (∀ si < f.config.topology.connections.length,
      ((collected level f.config.topology (f.run rounds)).stream ⟨si⟩).map (fun s =>
          (s.elements, s.queueDepthPeak, s.backpressureEvents, s.backpressureDurationNs)) =
        (stats.streamStats ⟨si⟩).map fun s =>
          (s.elementsTotal, s.peakQueueDepth, s.backpressureEvents, s.backpressureDuration)) ↔
      ∀ si, Guarded FlowDriver.step (fun d r => ended si d r = 0) f.start rounds := by
  set t := f.config.topology with ht
  obtain ⟨hlength, hspec⟩ := spawnStreamsFrom_spec f.built
  have hlen : (f.run rounds).streams.length = t.connections.length :=
    (length_run _ _).trans hlength
  have hduration : ∀ si, durationAt si (f.run rounds) = sumOver (ended si) f.start rounds := by
    intro si
    have hsum := eq_add_sumOver (X := durationAt si) (g := ended si)
      (hcounting.mono fun d r h =>
        (counts_step_of_enters f.valid h.inv h.signalled h.enters h.tallied).2.2 si)
    have hstart : durationAt si f.start = 0 := by
      unfold durationAt
      cases hs : f.start.streams[si]? with
      | none => rfl
      | some s =>
          show s.metrics.backpressureDuration = 0
          rw [(hspec si s hs).2.2.2.2.2]
          rfl
    rw [hstart, Nat.zero_add] at hsum
    exact hsum
  have hiff : ∀ si < t.connections.length,
      (((collected level t (f.run rounds)).stream ⟨si⟩).map (fun s =>
          (s.elements, s.queueDepthPeak, s.backpressureEvents, s.backpressureDurationNs)) =
        (stats.streamStats ⟨si⟩).map (fun s =>
          (s.elementsTotal, s.peakQueueDepth, s.backpressureEvents, s.backpressureDuration)) ↔
      Guarded FlowDriver.step (fun d r => ended si d r = 0) f.start rounds) := by
    intro si hlt
    obtain ⟨s, hs⟩ : ∃ s, (f.run rounds).streams[si]? = some s :=
      ⟨_, List.getElem?_eq_getElem (lt_of_lt_of_eq hlt hlen.symm)⟩
    have hregistered := FlowMetrics.stream_new (t.stages.map StageDefinition.componentId)
      (List.mem_map_of_mem (f := StreamId.mk) (List.mem_range.mpr hlt))
    have hcollected : (collected level t (f.run rounds)).stream ⟨si⟩ =
        some (FlowMetrics.countStream (.new ⟨si⟩) (transfers ⟨si⟩ (f.run rounds).events)
          (signals ⟨si⟩ (f.run rounds).events)) := by
      unfold collected
      rw [FlowMetrics.stream_observeAll hlevel, hregistered, Option.map_some]
    have hlasted : s.metrics.backpressureDuration = sumOver (ended si) f.start rounds := by
      rw [← hduration si, durationAt, hs]
      rfl
    rw [hshows.streams si s hs, hcollected, ← sumOver_eq_zero_iff, ← hlasted]
    simp only [Option.map_some, FlowMetrics.countStream, StreamMetrics.new, Nat.zero_add,
      hfinal.elements si s hs, hfinal.peak si s hs, hfinal.events si s hs, Option.some.injEq,
      Prod.mk.injEq, true_and]
    exact eq_comm
  constructor
  · intro hall si
    by_cases hlt : si < t.connections.length
    · exact (hiff si hlt).mp (hall si hlt)
    · -- a stream that does not exist is under no backpressure
      have hnone : ∀ before, (f.run before).streams[si]? = none := by
        intro before
        rw [List.getElem?_eq_none_iff, show (f.run before).streams.length = _ from
          (length_run _ _).trans hlength]
        exact Nat.le_of_not_lt hlt
      refine (Guarded.of_forall (P := fun d => d.streams[si]? = none) hnone rounds).mono
        fun d r h => ?_
      unfold ended
      rw [h]
      split
      · rename_i heq
        cases heq
      · rfl
  · intro hall si hlt
    exact (hiff si hlt).mpr (hall si)

end Compared

/-- **Exactly when the accounts agree**: in the runs in which every round executes nothing but a
source whose element finds room, at the last stage of its component, and in which no phase of
backpressure ends that has lasted any time. -/
theorem metrics_agree_iff (f : SpawnedFlow) (rounds : List Round) (level : ℕ → ObservabilityLevel)
    (hlevel : ∀ n, (level n).isEnabled = true) {stats : FlowCompletionStats}
    (hstats : .flowCompleted stats ∈ (f.run rounds).events) :
    MetricsAgree f.config.topology (collected level f.config.topology (f.run rounds)) stats
        (sumOver entered f.start rounds) ↔
      Guarded FlowDriver.step (Accounted f.config.topology) f.start rounds := by
  set t := f.config.topology with ht
  have hshows := (concluded_run f rounds).stats stats hstats
  have hall : Guarded FlowDriver.step (fun _ _ => True) f.start rounds :=
    Guarded.of_forall (P := fun _ => True) (fun _ => trivial) rounds
  have hexecuted : (collected level t (f.run rounds)).elementsTotal =
      sumOver executed f.start rounds := by
    have hsum := eq_add_sumOver (X := fun d => (invocations d.events).length) (g := executed)
      (hall.mono fun d r _ => length_invocations_step d r)
    unfold collected
    rw [FlowMetrics.elementsTotal_observeAll hlevel]
    exact (Nat.zero_add _).trans (hsum.trans (Nat.zero_add _))
  have helements : (collected level t (f.run rounds)).elementsTotal =
      sumOver entered f.start rounds ↔ Guarded FlowDriver.step Enters f.start rounds := by
    rw [hexecuted, eq_comm, sumOver_eq_iff (hall.mono fun d r _ => entered_le_executed d r)]
    exact hall.congr fun d r _ => entered_eq_executed_iff
  by_cases henters : Guarded FlowDriver.step Enters f.start rounds
  · have hreached : Guarded FlowDriver.step (fun d _ =>
        (d.state = .running ∨ d.state = .draining → DriverInv t d) ∧ Signalled t d) f.start rounds :=
      Guarded.of_forall (fun before => ⟨f.inv_run before, f.signalled_run before⟩) rounds
    have hkept : ∀ d r, (Enters d r ∧
        (d.state = .running ∨ d.state = .draining → DriverInv t d) ∧ Signalled t d) →
        Tallied t d → Tallied t (d.step r) :=
      fun d r h htallied => htallied.step f.valid h.2.1 h.2.2 h.1
    have hfinal : Tallied t (f.run rounds) :=
      (henters.and hreached).invariant hkept (tallied_start f)
    have hcounting : Guarded FlowDriver.step (Counting t) f.start rounds :=
      ((henters.and hreached).with_invariant hkept (tallied_start f)).mono
        fun d r h => ⟨h.1.1, h.1.2.1, h.1.2.2, h.2⟩
    have hown := components_agree_iff hlevel hshows hfinal hcounting
    have hprompt := streams_agree_iff hlevel hshows hfinal hcounting
    simp only [← Guarded.forall_iff] at hown hprompt
    constructor
    · intro hagree
      have h₁ := hown.mp hagree.components
      have h₂ := hprompt.mp hagree.streams
      exact ((hcounting.and h₁).and h₂).mono fun d r h =>
        ⟨h.1.1.enters, (own_iff f.valid h.1.1).mpr h.1.2, h.2⟩
    · intro haccounted
      refine ⟨hown.mpr ?_, hprompt.mpr ?_, helements.mpr henters⟩
      · exact (hcounting.and haccounted).mono fun d r h => (own_iff f.valid h.1).mp h.2.own
      · exact haccounted.mono fun d r h => h.prompt
  · refine iff_of_false (fun hagree => henters (helements.mp hagree.elements)) fun haccounted => ?_
    exact henters (haccounted.mono fun d r h => h.enters)

/-- A round that comes after every drain deadline. -/
def lastRound : Round := { quietRound (forwarding 3) with start := 10 ^ 15 }

/-- One element enters, and the flow is cancelled. -/
def briefRounds : List Round :=
  [quietRound (forwarding 3),
    { quietRound (forwarding 3) with cancelBefore := some .operatorRequest }, lastRound]

/-- The statistics of a run that has ended. -/
theorem exists_flowCompleted {d : FlowDriver} (h : (d.events.any fun
      | .flowCompleted _ => true
      | _ => false) = true) : ∃ stats, .flowCompleted stats ∈ d.events := by
  obtain ⟨ev, hmem, hev⟩ := List.any_eq_true.mp h
  cases ev with
  | flowCompleted stats => exact ⟨stats, hmem⟩
  | _ => cases hev

/-- The two accounts of the brief run agree. -/
theorem metrics_agree_briefRounds : ∃ stats, .flowCompleted stats ∈
      (lossyFlow.run briefRounds).events ∧
    MetricsAgree lossyConfig.topology
      (collected (fun _ => .production) lossyConfig.topology (lossyFlow.run briefRounds)) stats 1 := by
  obtain ⟨stats, hstats⟩ : ∃ stats, .flowCompleted stats ∈ (lossyFlow.run briefRounds).events :=
    exists_flowCompleted (by decide)
  have hentered : sumOver entered lossyFlow.start briefRounds = 1 := by decide
  have hidle : ∀ {d : FlowDriver} {r : Round}, d.chosen r = none →
      Accounted lossyConfig.topology d r := by
    intro d r hnone
    refine ⟨fun e he => ?_, fun e he => ?_, fun si => ?_⟩
    · rw [hnone] at he
      cases he
    · rw [hnone] at he
      cases he
    · rw [ended, hnone]
  have hpulled : lossyFlow.start.chosen (quietRound (forwarding 3)) =
      some ⟨⟨0⟩, 0, .pullFromSource⟩ := by
    decide
  refine ⟨stats, hstats, hentered ▸ ?_⟩
  refine (metrics_agree_iff lossyFlow briefRounds _ (fun _ => rfl) hstats).mpr
    ⟨⟨?_, ?_, ?_⟩, hidle (by decide), hidle (by decide), trivial⟩
  · intro e he
    obtain rfl := Option.some.inj (hpulled.symm.trans he)
    exact ⟨rfl, 0, by decide, by decide⟩
  · intro e he v stage hstage hid
    obtain rfl := Option.some.inj (hpulled.symm.trans he)
    have hall : ∀ v ∈ List.range 6, (lossyConfig.topology.stages[v]?.map fun stage =>
        decide (stage.componentId = ⟨0⟩ → v = 0)) = some true := by
      decide
    have hstage : lossyConfig.topology.stages[v]? = some stage := hstage
    have hlt : v < 6 := (List.getElem?_eq_some_iff.mp hstage).1
    have hv := hall v (List.mem_range.mpr hlt)
    rw [hstage] at hv
    exact (of_decide_eq_true (Option.some.inj hv) hid).le
  · -- no stream is under backpressure when the flow starts
    intro si
    have hnormal : ∀ s ∈ lossyFlow.start.streams, s.backpressure = .normal := by
      decide
    unfold ended
    split
    · rename_i s _ hs
      have hzero : activeFor s (quietRound (forwarding 3)).finish = 0 := by
        rw [activeFor, hnormal s (List.mem_of_getElem? hs)]
      rw [hzero, ite_self]
    · rfl

/-- Seven invocations are counted as elements, of which one has entered. -/
theorem metrics_disagree : ∃ stats, .flowCompleted stats ∈
      (lossyFlow.run (lossyRounds ++ [lastRound])).events ∧
    ¬MetricsAgree lossyConfig.topology
      (collected (fun _ => .production) lossyConfig.topology
        (lossyFlow.run (lossyRounds ++ [lastRound]))) stats
      (sumOver entered lossyFlow.start (lossyRounds ++ [lastRound])) := by
  obtain ⟨stats, hstats⟩ : ∃ stats, .flowCompleted stats ∈
      (lossyFlow.run (lossyRounds ++ [lastRound])).events :=
    exists_flowCompleted (by decide)
  refine ⟨stats, hstats, fun hagree => ?_⟩
  have hcount : (collected (fun _ => .production) lossyConfig.topology
      (lossyFlow.run (lossyRounds ++ [lastRound]))).elementsTotal ≠
        sumOver entered lossyFlow.start (lossyRounds ++ [lastRound]) := by
    decide
  exact hcount hagree.elements

end Torvyn.Observability.Collector
