/-
# The hysteresis of backpressure

A check puts a stream under backpressure when it is full and releases it at the low watermark.
Between two checks the state of a stream does not change, so the signals that a stream emits
alternate along a run.  Each signal is handed to the component that feeds the stream, in the
order of the checks, when that component is a source.
-/
import Torvyn.Reactor.Record
import Torvyn.Reactor.Credit

namespace Torvyn.Reactor

/-! ## Signals in the log -/

/-- The signal for a producer that a check has emitted for a stream. -/
def FlowEvent.emitted? : FlowEvent → Option (StreamId × BackpressureSignal)
  | .recordBackpressure id activated _ _ => some (id, if activated then .pause else .ready)
  | _ => none

/-- The signal that a component has been handed. -/
def FlowEvent.notified? : FlowEvent → Option (ComponentId × BackpressureSignal)
  | .invoked componentId (.notifyBackpressure signal) => some (componentId, signal)
  | _ => none

/-- The signals emitted so far, each with its stream. -/
def emitted (events : List FlowEvent) : List (StreamId × BackpressureSignal) :=
  events.filterMap FlowEvent.emitted?

/-- The signals delivered so far, each with its receiver. -/
def notifications (events : List FlowEvent) : List (ComponentId × BackpressureSignal) :=
  events.filterMap FlowEvent.notified?

/-- The signals emitted so far for one stream. -/
def signals (id : StreamId) (events : List FlowEvent) : List BackpressureSignal :=
  (emitted events).filterMap fun p => if p.1 = id then some p.2 else none

/-- The first `n` signals of a stream that is paused first and released in turn. -/
def alternating (n : ℕ) : List BackpressureSignal :=
  (List.range n).map fun i => if i % 2 = 0 then .pause else .ready

/-- Whom a signal for the producer of a stream is for: the stage the stream comes from, if that
is a source. -/
def recipient (t : FlowTopology) (p : StreamId × BackpressureSignal) :
    Option (ComponentId × BackpressureSignal) :=
  t.connections[p.1.id]?.bind fun c =>
    t.stages[c.fromStage]?.bind fun stage =>
      if stage.role = .source then some (stage.componentId, p.2) else none

@[simp] theorem emitted_append (events more : List FlowEvent) :
    emitted (events ++ more) = emitted events ++ emitted more := List.filterMap_append

@[simp] theorem notifications_append (events more : List FlowEvent) :
    notifications (events ++ more) = notifications events ++ notifications more :=
  List.filterMap_append

@[simp] theorem signals_append (id : StreamId) (events more : List FlowEvent) :
    signals id (events ++ more) = signals id events ++ signals id more := by
  unfold signals
  rw [emitted_append, List.filterMap_append]

theorem alternating_succ (n : ℕ) :
    alternating (n + 1) = alternating n ++ [if n % 2 = 0 then .pause else .ready] := by
  unfold alternating
  rw [List.range_succ, List.map_append]
  rfl

/-- Of an indexed list only the entry at one index is kept. -/
theorem filterMap_zipIdx_eq {α β : Type*} (l : List α) (f : α → Option β) (k i : ℕ) :
    ((l.zipIdx k).filterMap fun p => if p.2 = k + i then f p.1 else none) =
      (l[i]?.bind f).toList := by
  induction l generalizing k i with
  | nil => rfl
  | cons a l ih =>
      rw [List.zipIdx_cons, List.filterMap_cons]
      cases i with
      | zero =>
          have hrest : ((l.zipIdx (k + 1)).filterMap
              fun p => if p.2 = k + 0 then f p.1 else none) = [] := by
            rw [List.filterMap_eq_nil_iff]
            intro p hp
            have hle := List.le_snd_of_mem_zipIdx hp
            rw [if_neg (by omega)]
          rw [hrest]
          simp only [Nat.add_zero, if_true, List.getElem?_cons_zero, Option.bind_some]
          cases f a <;> rfl
      | succ i =>
          have hne : ¬k = k + (i + 1) := by omega
          have hshift : k + (i + 1) = k + 1 + i := by omega
          simp only [if_neg hne, List.getElem?_cons_succ]
          rw [hshift]
          exact ih (k + 1) i

/-! ## One check of one stream -/

namespace StreamState

/-- What a check of one stream can do: nothing, pause a full stream, or release a stream at its
low watermark. -/
inductive Checked (s : StreamState) : Option BackpressureSignal → StreamState → Prop
  | kept : (s.backpressure.isActive = false → s.queue.len < s.queue.capacity) →
      (s.backpressure.isActive = true → s.lowWatermarkDepth < s.queue.len) → Checked s none s
  | paused (s' : StreamState) : s.backpressure.isActive = false →
      s'.backpressure.isActive = true → s.queue.len = s.queue.capacity → Checked s (some .pause) s'
  | released (s' : StreamState) : s.backpressure.isActive = true →
      s'.backpressure.isActive = false → s.queue.len ≤ s.lowWatermarkDepth →
      Checked s (some .ready) s'

theorem checkBackpressure_checked (s : StreamState) (now : ℕ) :
    Checked s (s.checkBackpressure now).1 (s.checkBackpressure now).2 := by
  have hle := s.queue.len_le
  unfold checkBackpressure
  cases hb : s.backpressure with
  | normal =>
      have hinactive : s.backpressure.isActive = false := by rw [hb]; rfl
      by_cases hfull : s.queue.capacity ≤ s.queue.len
      · have htransition : checkBackpressureTransition s.queue.len s.queue.capacity
            s.lowWatermarkDepth BackpressureState.normal.isActive = some true := by
          simp [checkBackpressureTransition, BackpressureState.isActive, hfull]
        simp only [htransition, BackpressureState.tryActivate]
        exact .paused _ hinactive rfl (by omega)
      · have htransition : checkBackpressureTransition s.queue.len s.queue.capacity
            s.lowWatermarkDepth BackpressureState.normal.isActive = none := by
          simp [checkBackpressureTransition, BackpressureState.isActive]
          omega
        simp only [htransition]
        exact .kept (fun _ => by omega) (by simp [hinactive])
  | active since =>
      have hactive : s.backpressure.isActive = true := by rw [hb]; rfl
      by_cases hlow : s.queue.len ≤ s.lowWatermarkDepth
      · have htransition : checkBackpressureTransition s.queue.len s.queue.capacity
            s.lowWatermarkDepth (BackpressureState.active since).isActive = some false := by
          simp [checkBackpressureTransition, BackpressureState.isActive, hlow]
        simp only [htransition, BackpressureState.tryDeactivate]
        exact .released _ hactive rfl hlow
      · have htransition : checkBackpressureTransition s.queue.len s.queue.capacity
            s.lowWatermarkDepth (BackpressureState.active since).isActive = none := by
          simp [checkBackpressureTransition, BackpressureState.isActive]
          omega
        simp only [htransition]
        exact .kept (by simp [hactive]) (fun _ => by omega)

/-- The watermark of a stream is fixed. -/
theorem lowWatermarkRatio_checkBackpressure (s : StreamState) (now : ℕ) :
    (s.checkBackpressure now).2.lowWatermarkRatio = s.lowWatermarkRatio := by
  unfold checkBackpressure
  split
  · rfl
  · split <;> rfl
  · split <;> rfl

theorem lowWatermarkDepth_checkBackpressure (s : StreamState) (now : ℕ) :
    (s.checkBackpressure now).2.lowWatermarkDepth = s.lowWatermarkDepth := by
  obtain ⟨-, hqueue, -⟩ := s.checkBackpressure_frame now
  rw [lowWatermarkDepth, s.lowWatermarkRatio_checkBackpressure now, hqueue, lowWatermarkDepth]

end StreamState

namespace FlowDriver

/-! ## Parts without a check -/

/-- Between the two states no stream changes its backpressure or its limits, and no signal is
emitted or delivered. -/
structure Steady (d d' : FlowDriver) : Prop where
  length_eq : d'.streams.length = d.streams.length
  stream : ∀ (si : ℕ) (s : StreamState), d.streams[si]? = some s →
    ∃ s', d'.streams[si]? = some s' ∧ s'.id = s.id ∧
      s'.lowWatermarkRatio = s.lowWatermarkRatio ∧ s'.backpressure = s.backpressure ∧
      s'.queue.capacity = s.queue.capacity
  topology : d'.topology = d.topology
  streamIndex : d'.streamIndex = d.streamIndex
  events : ∃ more, d'.events = d.events ++ more ∧ emitted more = [] ∧ notifications more = []

namespace Steady

variable {d d₁ d' : FlowDriver}

/-- Without a change of the streams only the log matters. -/
theorem of_streams_eq (more : List FlowEvent) (hstreams : d'.streams = d.streams)
    (hcontext : d'.context = d.context) (hevents : d'.events = d.events ++ more)
    (hemitted : emitted more = []) (hnotified : notifications more = []) : Steady d d' :=
  ⟨by rw [hstreams], fun si s hs => ⟨s, hstreams ▸ hs, rfl, rfl, rfl, rfl⟩,
    congrArg Context.topology hcontext, congrArg Context.streamIndex hcontext,
    more, hevents, hemitted, hnotified⟩

theorem refl (d : FlowDriver) : Steady d d :=
  .of_streams_eq [] rfl rfl (List.append_nil _).symm rfl rfl

theorem trans (h : Steady d d₁) (h' : Steady d₁ d') : Steady d d' := by
  obtain ⟨more, hevents, hemitted, hnotified⟩ := h.events
  obtain ⟨more', hevents', hemitted', hnotified'⟩ := h'.events
  refine ⟨h'.length_eq.trans h.length_eq, fun si s hs => ?_, h'.topology.trans h.topology,
    h'.streamIndex.trans h.streamIndex, more ++ more', ?_, ?_, ?_⟩
  · obtain ⟨s₁, hs₁, hid₁, hratio₁, hbp₁, hcap₁⟩ := h.stream si s hs
    obtain ⟨s', hs', hid', hratio', hbp', hcap'⟩ := h'.stream si s₁ hs₁
    exact ⟨s', hs', hid'.trans hid₁, hratio'.trans hratio₁, hbp'.trans hbp₁, hcap'.trans hcap₁⟩
  · rw [hevents', hevents, List.append_assoc]
  · rw [emitted_append, hemitted, hemitted', List.append_nil]
  · rw [notifications_append, hnotified, hnotified', List.append_nil]

/-- Streams of which some have been marked complete. -/
theorem of_marks {marked : ℕ → Prop} (hmarks : Marks marked d.streams d'.streams)
    (hcontext : d'.context = d.context) (hevents : d'.events = d.events) : Steady d d' := by
  refine ⟨hmarks.length_eq, fun si s hs => ?_, congrArg Context.topology hcontext,
    congrArg Context.streamIndex hcontext, [], by simpa using hevents, rfl, rfl⟩
  rcases hmarks.stream si s hs with ⟨-, hs'⟩ | ⟨-, hs'⟩
  · exact ⟨_, hs', rfl, rfl, rfl, rfl⟩
  · exact ⟨_, hs', rfl, rfl, rfl, rfl⟩

/-- One stream is replaced by another state of it. -/
theorem of_set {si : ℕ} {s : StreamState} (s' : StreamState) (more : List FlowEvent)
    (hs : d.streams[si]? = some s) (hstreams : d'.streams = d.streams.set si s')
    (hid : s'.id = s.id) (hratio : s'.lowWatermarkRatio = s.lowWatermarkRatio)
    (hbp : s'.backpressure = s.backpressure) (hcap : s'.queue.capacity = s.queue.capacity)
    (hcontext : d'.context = d.context)
    (hevents : d'.events = d.events ++ more) (hemitted : emitted more = [])
    (hnotified : notifications more = []) : Steady d d' := by
  refine ⟨by rw [hstreams, List.length_set], fun sj s₁ hs₁ => ?_,
    congrArg Context.topology hcontext, congrArg Context.streamIndex hcontext,
    more, hevents, hemitted, hnotified⟩
  rw [hstreams]
  by_cases hj : si = sj
  · subst hj
    obtain rfl : s = s₁ := Option.some.inj (hs.symm.trans hs₁)
    exact ⟨s', List.getElem?_set_self (List.getElem?_eq_some_iff.mp hs).1, hid, hratio, hbp, hcap⟩
  · exact ⟨s₁, (List.getElem?_set_ne hj).trans hs₁, rfl, rfl, rfl, rfl⟩

end Steady

section SteadySteps

variable (d : FlowDriver) (r : Round)

theorem steady_markComplete (sis : List ℕ) : Steady d (d.markComplete sis) :=
  .of_marks (d.marks_markComplete sis) rfl rfl

theorem steady_pushPulled (element : OutputElement) (si : ℕ) :
    Steady d (d.pushPulled r element si) := by
  have hcontext := context_pushPulled d r element si
  cases hs : d.streams[si]? with
  | none =>
      have hpushed : (d.pushPulled r element si).streams = d.streams ∧
          (d.pushPulled r element si).events = d.events ++ [] := by
        simp only [pushPulled, hs, List.append_nil, and_self]
      exact .of_streams_eq [] hpushed.1 hcontext hpushed.2 rfl rfl
  | some s =>
      have hpushed := pushPulled_eq r element hs
      by_cases hfull : s.queue.isFull = true
      · rw [hfull] at hpushed
        exact .of_set _ _ hs (congrArg streams hpushed) rfl rfl rfl (s.capacity_emit _) hcontext
          (congrArg FlowDriver.events hpushed) rfl rfl
      · rw [Bool.not_eq_true] at hfull
        rw [hfull] at hpushed
        exact .of_set _ _ hs (congrArg streams hpushed) rfl rfl rfl (s.capacity_emit _) hcontext
          (congrArg FlowDriver.events hpushed) rfl rfl

theorem steady_pushOutput (input : StreamElementRef) (output : OutputElement) (si : ℕ) :
    Steady d (d.pushOutput input output si) := by
  have hcontext := context_pushOutput d input output si
  cases hs : d.streams[si]? with
  | none =>
      have hpushed : (d.pushOutput input output si).streams = d.streams ∧
          (d.pushOutput input output si).events = d.events ++ [] := by
        simp only [pushOutput, hs, List.append_nil, and_self]
      exact .of_streams_eq [] hpushed.1 hcontext hpushed.2 rfl rfl
  | some s =>
      have hpushed := pushOutput_eq input output hs
      exact .of_set _ _ hs (congrArg streams hpushed) rfl rfl rfl (s.capacity_emit _) hcontext
        (congrArg FlowDriver.events hpushed) rfl rfl

theorem steady_pushAll (input : StreamElementRef) (ts : List (OutputElement × ℕ)) :
    Steady d (d.pushAll input ts) := by
  induction ts generalizing d with
  | nil => exact .refl d
  | cons t ts ih => exact (d.steady_pushOutput input t.1 t.2).trans (ih _)

theorem steady_taking {si : ℕ} {s : StreamState} (elem : StreamElementRef)
    (hs : d.streams[si]? = some s) : Steady d (d.taking si s elem) :=
  .of_set s.take.2 [] hs rfl rfl rfl rfl s.capacity_take rfl (List.append_nil _).symm rfl rfl

theorem steady_recordExecution (e : StageExecution) (result : Except FlowError Unit) :
    Steady d (d.recordExecution r e result) := by
  obtain ⟨hstreams, hcontext, -⟩ := recordExecution_frame d r e result
  obtain ⟨startNs, endNs, status, hevents⟩ := events_recordExecution d r e result
  refine .of_streams_eq _ hstreams hcontext hevents ?_ ?_
  · cases d.currentElementSequence <;> rfl
  · cases d.currentElementSequence <;> rfl

/-- No action checks a stream. -/
theorem Acted.steady {d' : FlowDriver} {e : StageExecution} (h : Acted d r e d') : Steady d d' := by
  cases h with
  | starved => exact .refl d
  | asked answer => exact .of_streams_eq _ rfl rfl rfl rfl rfl
  | exhausted sis =>
      have hasked : Steady d (d.log (.invoked e.componentId (.pull (.ok none)))) :=
        .of_streams_eq _ rfl rfl rfl rfl rfl
      exact hasked.trans (steady_markComplete _ sis)
  | produced element si =>
      have hasked : Steady d (d.log (.invoked e.componentId (.pull (.ok (some element))))) :=
        .of_streams_eq _ rfl rfl rfl rfl rfl
      exact hasked.trans (steady_pushPulled _ r element si)
  | processed si s elem answer ts _ _ _ _ hs =>
      have hasked : Steady (d.taking si s elem) ((d.taking si s elem).log
          (.invoked e.componentId (.process elem.toStreamElement answer))) :=
        .of_streams_eq _ rfl rfl rfl rfl rfl
      exact ((d.steady_taking elem hs).trans hasked).trans (steady_pushAll _ elem ts)
  | consumed _ s elem answer latency _ _ hs =>
      refine (d.steady_taking elem hs).trans (.of_streams_eq _ rfl rfl rfl ?_ ?_)
      · cases latency <;> rfl
      · cases latency <;> rfl

theorem steady_executeStage (e : StageExecution) : Steady d (d.executeStage r e).1 := by
  have hprepared : Steady d (d.prepared d.cancellation) :=
    .of_streams_eq [] rfl rfl (List.append_nil _).symm rfl rfl
  have hacted := Acted.steady _ r (executeAction_acted (d.prepared d.cancellation) r e)
  exact (hprepared.trans hacted).trans (steady_recordExecution _ r e _)

theorem steady_withCancellation (c : FlowCancellation) : Steady d (d.withCancellation c) :=
  ⟨rfl, fun _ s hs => ⟨s, hs, rfl, rfl, rfl, rfl⟩, rfl, rfl, [], (List.append_nil _).symm, rfl, rfl⟩

/-- Stages completed one after another. -/
theorem steady_foldl {f : FlowDriver → ℕ → FlowDriver} (hf : ∀ d v, Steady d (f d v))
    (vs : List ℕ) : Steady d (vs.foldl f d) := by
  induction vs generalizing d with
  | nil => exact .refl d
  | cons v vs ih => exact (hf d v).trans (ih _)

theorem steady_propagateProducerComplete : Steady d d.propagateProducerComplete :=
  d.steady_foldl (fun d v => .of_marks (d.propagateStage_marks v) (d.context_propagateStage v)
    (d.events_propagateStage v)) _

theorem steady_beginDrain : Steady d (d.beginDrain r) := by
  have hmarks : Steady d d.markSourcesComplete := by
    refine d.steady_foldl (fun d v => ?_) _
    unfold markSource
    split
    · exact d.steady_markComplete _
    · exact .refl d
  exact hmarks.trans ⟨rfl, fun si s hs => ⟨s, hs, rfl, rfl, rfl, rfl⟩, rfl, rfl, _, rfl, rfl, rfl⟩

theorem steady_finish : Steady d (d.finish r) := by
  obtain ⟨more, hevents, hmore, -⟩ := d.finish_events r
  refine ⟨List.length_map _, fun si s hs => ⟨s.discardAll, ?_, rfl, rfl, rfl,
    s.queue.capacity_drainAll⟩, rfl, rfl,
    more, hevents, ?_, ?_⟩
  · show (d.streams.map StreamState.discardAll)[si]? = some s.discardAll
    rw [List.getElem?_map, hs, Option.map_some]
  · refine List.filterMap_eq_nil_iff.mpr fun ev hev => ?_
    rcases hmore ev hev with ⟨s, -, -, rfl⟩ | ⟨oldState, newState, rfl⟩ | ⟨stats, rfl⟩ <;> rfl
  · refine List.filterMap_eq_nil_iff.mpr fun ev hev => ?_
    rcases hmore ev hev with ⟨s, -, -, rfl⟩ | ⟨oldState, newState, rfl⟩ | ⟨stats, rfl⟩ <;> rfl

end SteadySteps

/-! ## The check of all streams -/

/-- The signals of a check, each with the index of its stream. -/
def transitions (d : FlowDriver) (r : Round) : List (ℕ × BackpressureSignal) :=
  (d.checkBackpressureAll r).2

section AfterStage

variable (d : FlowDriver) (r : Round)

/-- Reports of backpressure are no notifications, and the reports of a check are its transitions. -/
theorem emitted_checked {checked : List (Option BackpressureSignal × StreamState)} {k : ℕ}
    (hid : ∀ (i : ℕ) (p : Option BackpressureSignal × StreamState),
      checked[i]? = some p → p.2.id = ⟨k + i⟩) (timestampNs : ℕ) :
    emitted (checked.filterMap fun (signal, s) => signal.map fun signal =>
        .recordBackpressure s.id (signal == .pause) (s.queue.len % 2 ^ 32) timestampNs) =
      ((checked.zipIdx k).filterMap fun (c, i) => c.1.map fun signal => (i, signal)).map
        fun p => (⟨p.1⟩, p.2) := by
  induction checked generalizing k with
  | nil => rfl
  | cons p checked ih =>
      obtain ⟨signal, s⟩ := p
      have hs : s.id = ⟨k⟩ := hid 0 (signal, s) rfl
      have hrest := ih (k := k + 1) fun i p hp => by
        rw [hid (i + 1) p (by simpa using hp)]
        congr 1
        omega
      cases signal with
      | none => exact hrest
      | some signal =>
          have hsignal : (if (signal == .pause) = true then BackpressureSignal.pause else .ready) =
              signal := by
            cases signal <;> rfl
          rw [List.zipIdx_cons, List.filterMap_cons, List.filterMap_cons]
          simp only [Option.map_some, List.map_cons]
          rw [← hrest]
          show (s.id, if (signal == .pause) = true then BackpressureSignal.pause else .ready) :: _ = _
          rw [hsignal, hs]
          rfl

/-- What a check and the notifications after it add to the log. -/
theorem events_afterStage :
    ∃ reports notes rest, (d.afterStage r).events = d.events ++ reports ++ notes ++ rest ∧
      reports = ((d.streams.map fun s => s.checkBackpressure r.finish).filterMap
        fun (signal, s) => signal.map fun signal =>
          .recordBackpressure s.id (signal == .pause) (s.queue.len % 2 ^ 32) r.timestampNs) ∧
      notes = (d.transitions r).filterMap (fun (si, signal) =>
        d.streamIndex.producers[si]?.bind fun stageIdx =>
          d.topology.stages[stageIdx]?.bind fun stage =>
            if stage.role = .source then
              some (.invoked stage.componentId (.notifyBackpressure signal))
            else none) ∧
      emitted rest = [] ∧ notifications rest = [] := by
  unfold afterStage yieldCheck
  simp only
  split
  · exact ⟨_, _, [_], rfl, rfl, rfl, rfl, rfl⟩
  · exact ⟨_, _, [], (List.append_nil _).symm, rfl, rfl, rfl, rfl⟩

/-- The streams of a driver are numbered by their ids. -/
def Numbered (d : FlowDriver) : Prop :=
  ∀ (si : ℕ) (s : StreamState), d.streams[si]? = some s → s.id = ⟨si⟩

/-- **What a check emits for each stream, and whom it is delivered to.** -/
theorem afterStage_signals {t : FlowTopology} (hid : d.Numbered) (htopology : d.topology = t)
    (hindex : d.streamIndex = .build t) :
    ∃ more, (d.afterStage r).events = d.events ++ more ∧
      (∀ si, signals ⟨si⟩ more =
        (d.streams[si]?.bind fun s => (s.checkBackpressure r.finish).1).toList) ∧
      notifications more = (emitted more).filterMap (recipient t) := by
  obtain ⟨reports, notes, rest, hevents, hreports, hnotes, hrest, hrest'⟩ := d.events_afterStage r
  have hemitted : emitted reports = (d.transitions r).map fun p => (⟨p.1⟩, p.2) := by
    rw [hreports]
    refine emitted_checked (k := 0) (fun i p hp => ?_) r.timestampNs
    rw [List.getElem?_map] at hp
    obtain ⟨s, hs, rfl⟩ := Option.map_eq_some_iff.mp hp
    rw [(s.checkBackpressure_frame r.finish).1, hid i s hs, Nat.zero_add]
  have hreports' : notifications reports = [] := by
    rw [hreports]
    refine List.filterMap_eq_nil_iff.mpr fun ev hev => ?_
    obtain ⟨⟨signal, s⟩, -, hev⟩ := List.mem_filterMap.mp hev
    obtain ⟨signal', -, rfl⟩ := Option.map_eq_some_iff.mp hev
    rfl
  have hnotes' : emitted notes = [] := by
    rw [hnotes]
    refine List.filterMap_eq_nil_iff.mpr fun ev hev => ?_
    obtain ⟨⟨si, signal⟩, -, hev⟩ := List.mem_filterMap.mp hev
    obtain ⟨v, -, hev⟩ := Option.bind_eq_some_iff.mp hev
    obtain ⟨stage, -, hev⟩ := Option.bind_eq_some_iff.mp hev
    split at hev
    · obtain rfl := Option.some.inj hev
      rfl
    · cases hev
  have hall : emitted (reports ++ (notes ++ rest)) =
      (d.transitions r).map fun p => (⟨p.1⟩, p.2) := by
    rw [emitted_append, emitted_append, hemitted, hnotes', hrest, List.append_nil, List.append_nil]
  refine ⟨reports ++ (notes ++ rest), by rw [hevents]; simp only [List.append_assoc],
    fun si => ?_, ?_⟩
  · rw [signals, hall, List.filterMap_map]
    unfold transitions checkBackpressureAll
    rw [List.filterMap_filterMap]
    have hkept := filterMap_zipIdx_eq (d.streams.map fun s => s.checkBackpressure r.finish)
      Prod.fst 0 si
    rw [List.getElem?_map] at hkept
    calc _ = _ := ?_
      _ = _ := hkept
      _ = _ := by cases d.streams[si]? <;> rfl
    congr 1
    funext p
    obtain ⟨⟨signal, s⟩, i⟩ := p
    cases signal with
    | none => simp
    | some signal => simp [Function.comp]
  · rw [hall, notifications_append, notifications_append, hreports', hrest', List.append_nil,
      List.nil_append, hnotes, List.filterMap_map]
    unfold notifications
    rw [List.filterMap_filterMap]
    congr 1
    funext p
    obtain ⟨si, signal⟩ := p
    simp only [Function.comp, recipient, htopology, hindex, StreamIndex.build, List.getElem?_map]
    cases hc : t.connections[si]? with
    | none => rfl
    | some c =>
        simp only [Option.map_some, Option.bind_some]
        cases t.stages[c.fromStage]? with
        | none => rfl
        | some stage =>
            simp only [Option.bind_some]
            split <;> rfl

end AfterStage

/-! ## Rounds -/

/-- What a round does to the backpressure of the streams: nothing, or one check of all of them
when a stage has run. -/
inductive Checks (d : FlowDriver) (r : Round) : FlowDriver → Prop
  | steady (d' : FlowDriver) : Steady d d' →
      (d'.state = .running → d.state = .running ∧ Quiet d d') → Checks d r d'
  | checked (d₁ : FlowDriver) : Steady d d₁ → Checks d r (d₁.afterStage r)

theorem step_checks (d : FlowDriver) (r : Round) : Checks d r (d.step r) := by
  have hcancelled : Steady d (d.cancelBy r.cancelBefore) := d.steady_withCancellation _
  by_cases hrun : d.state = .running
  · rcases step_running hrun r with ⟨-, hstep⟩ | ⟨e, c, -, -, hstep⟩ | ⟨c, -, hstep⟩
    · rw [hstep]
      exact .steady _ (hcancelled.trans (steady_beginDrain _ r)) (by simp [beginDrain, log])
    · have hexecuted := (hcancelled.trans (steady_executeStage _ r e)).trans
        (steady_withCancellation _ c)
      rcases hstep with hstep | hstep
      · rw [hstep]
        exact .steady _ (hexecuted.trans (steady_beginDrain _ r)) (by simp [beginDrain, log])
      · rw [hstep]
        exact .checked _ hexecuted
    · have hidle := (hcancelled.trans (steady_propagateProducerComplete _)).trans
        (steady_withCancellation _ c)
      rcases hstep with hstep | hstep
      · rw [hstep]
        exact .steady _ (hidle.trans (steady_beginDrain _ r)) (by simp [beginDrain, log])
      · rw [hstep]
        exact .steady _ hidle fun _ => ⟨hrun, ((d.quiet_cancelled _).trans
          (quiet_propagateProducerComplete _)).trans (quiet_cancelled _ c)⟩
  · by_cases hdrain : d.state = .draining
    · rcases step_draining hdrain r with ⟨e, -, -, hstep⟩ | ⟨-, hstep⟩
      · rw [hstep]
        refine .steady _ (d.steady_executeStage r e) fun hstate => ?_
        have hkept : (d.executeStage r e).1.state = d.state :=
          congrArg Context.state (context_executeStage d r e)
        rw [hkept, hdrain] at hstate
        cases hstate
      · rw [hstep]
        refine .steady _ (d.steady_finish r) fun hstate => ?_
        have hterminal := d.isTerminal_finish r
        rw [hstate] at hterminal
        cases hterminal
    · rw [step_of_not_live hrun hdrain]
      exact .steady _ (.refl d) fun hstate => absurd hstate hrun

/-! ## Runs -/

/-- A stream is released before it can be paused again, and it is only paused when it is full:
what this means for a stream that has just been checked. -/
def Settled (d : FlowDriver) : Prop :=
  ∀ (si : ℕ) (s : StreamState), d.streams[si]? = some s → s.lowWatermarkDepth < s.queue.capacity →
    (s.backpressure.isActive = false → s.queue.len < s.queue.capacity) ∧
      (s.backpressure.isActive = true → s.lowWatermarkDepth < s.queue.len)

/-- The signals emitted and delivered so far, and the states that the streams are in after them. -/
structure Signalled (t : FlowTopology) (d : FlowDriver) : Prop where
  numbered : d.Numbered
  topology : d.topology = t
  streamIndex : d.streamIndex = .build t
  alternate : ∀ (si : ℕ) (s : StreamState), d.streams[si]? = some s →
    ∃ n, signals ⟨si⟩ d.events = alternating n ∧ (s.backpressure.isActive = true ↔ n % 2 = 1)
  delivered : notifications d.events = (emitted d.events).filterMap (recipient t)

section Runs

variable {t : FlowTopology} {d d' : FlowDriver}

/-- A stream of the later state comes from one of the earlier state. -/
theorem Steady.exists_stream (h : Steady d d') {si : ℕ} {s' : StreamState}
    (hs' : d'.streams[si]? = some s') : ∃ s, d.streams[si]? = some s ∧ s'.id = s.id ∧
      s'.lowWatermarkRatio = s.lowWatermarkRatio ∧ s'.backpressure = s.backpressure := by
  have hlt := (List.getElem?_eq_some_iff.mp hs').1
  rw [h.length_eq] at hlt
  obtain ⟨s'', hs'', hid, hratio, hbp, -⟩ := h.stream si _ (List.getElem?_eq_getElem hlt)
  obtain rfl := Option.some.inj (hs'.symm.trans hs'')
  exact ⟨_, List.getElem?_eq_getElem hlt, hid, hratio, hbp⟩

theorem Signalled.steady (h : Signalled t d) (hsteady : Steady d d') : Signalled t d' := by
  obtain ⟨more, hevents, hemitted, hnotified⟩ := hsteady.events
  refine ⟨fun si s' hs' => ?_, hsteady.topology.trans h.topology,
    hsteady.streamIndex.trans h.streamIndex, fun si s' hs' => ?_, ?_⟩
  · obtain ⟨s, hs, hid, -⟩ := hsteady.exists_stream hs'
    exact hid.trans (h.numbered si s hs)
  · obtain ⟨s, hs, -, -, hbp⟩ := hsteady.exists_stream hs'
    obtain ⟨n, hsignals, hactive⟩ := h.alternate si s hs
    refine ⟨n, ?_, hbp ▸ hactive⟩
    have hnone : signals ⟨si⟩ more = [] := by rw [signals, hemitted]; rfl
    rw [hevents, signals_append, hnone, List.append_nil, hsignals]
  · rw [hevents, notifications_append, emitted_append, hemitted, hnotified, List.append_nil,
      List.append_nil, h.delivered]

/-- The streams after a check. -/
theorem getElem?_afterStage (d : FlowDriver) (r : Round) (si : ℕ) :
    (d.afterStage r).streams[si]? =
      d.streams[si]?.map fun s => (s.checkBackpressure r.finish).2 := by
  rw [(d.afterStage_frame r).1, checkAll, List.getElem?_map]

theorem Signalled.afterStage (h : Signalled t d) (r : Round) : Signalled t (d.afterStage r) := by
  obtain ⟨-, hcontext, -⟩ := d.afterStage_frame r
  obtain ⟨more, hevents, hsignals, hnotified⟩ :=
    d.afterStage_signals r h.numbered h.topology h.streamIndex
  refine ⟨fun si s' hs' => ?_, (congrArg Context.topology hcontext).trans h.topology,
    (congrArg Context.streamIndex hcontext).trans h.streamIndex, fun si s' hs' => ?_, ?_⟩
  · rw [getElem?_afterStage] at hs'
    obtain ⟨s, hs, rfl⟩ := Option.map_eq_some_iff.mp hs'
    exact (s.checkBackpressure_frame r.finish).1.trans (h.numbered si s hs)
  · rw [getElem?_afterStage] at hs'
    obtain ⟨s, hs, rfl⟩ := Option.map_eq_some_iff.mp hs'
    obtain ⟨n, hbefore, hactive⟩ := h.alternate si s hs
    have hnew : signals ⟨si⟩ more = (s.checkBackpressure r.finish).1.toList := by
      rw [hsignals si, hs, Option.bind_some]
    rw [hevents, signals_append, hbefore, hnew]
    have hchecked := s.checkBackpressure_checked r.finish
    generalize (s.checkBackpressure r.finish).1 = signal at hchecked ⊢
    generalize (s.checkBackpressure r.finish).2 = s' at hchecked ⊢
    cases hchecked with
    | kept => exact ⟨n, List.append_nil _, hactive⟩
    | paused s' hinactive hactive' hfull =>
        -- an inactive stream has emitted an even number of signals
        have heven : n % 2 = 0 := by
          have hodd := mt hactive.mpr (by simp [hinactive])
          omega
        refine ⟨n + 1, ?_, by simp only [hactive', true_iff]; omega⟩
        rw [alternating_succ, if_pos heven]
        rfl
    | released s' hactive' hinactive hlow =>
        have hodd := hactive.mp hactive'
        refine ⟨n + 1, ?_, by simp only [hinactive, Bool.false_eq_true, false_iff]; omega⟩
        rw [alternating_succ, if_neg (by omega)]
        rfl
  · rw [hevents, notifications_append, emitted_append, List.filterMap_append, h.delivered, hnotified]

theorem settled_afterStage (d : FlowDriver) (r : Round) : (d.afterStage r).Settled := by
  intro si s' hs' hlow
  rw [getElem?_afterStage] at hs'
  obtain ⟨s, hs, rfl⟩ := Option.map_eq_some_iff.mp hs'
  obtain ⟨-, hqueue, -⟩ := s.checkBackpressure_frame r.finish
  rw [s.lowWatermarkDepth_checkBackpressure r.finish, hqueue] at hlow ⊢
  have hchecked := s.checkBackpressure_checked r.finish
  generalize (s.checkBackpressure r.finish).1 = signal at hchecked
  generalize (s.checkBackpressure r.finish).2 = s' at hchecked ⊢
  cases hchecked with
  | kept hroom hheld => exact ⟨hroom, hheld⟩
  | paused s' _ hactive hfull =>
      refine ⟨fun hinactive => ?_, fun _ => by omega⟩
      rw [hactive] at hinactive
      cases hinactive
  | released s' _ hinactive hle =>
      refine ⟨fun _ => by omega, fun hactive => ?_⟩
      rw [hinactive] at hactive
      cases hactive

theorem Settled.quiet (h : d.Settled) (hquiet : Quiet d d') (hsteady : Steady d d') :
    d'.Settled := by
  intro si s' hs'
  obtain ⟨s, hs, -, hratio, hbp⟩ := hsteady.exists_stream hs'
  obtain ⟨s'', hs'', -, hqueue, -⟩ := hquiet.stream si s hs
  obtain rfl := Option.some.inj (hs'.symm.trans hs'')
  have hdepth : s'.lowWatermarkDepth = s.lowWatermarkDepth := by
    unfold StreamState.lowWatermarkDepth
    rw [hratio, hqueue]
  rw [hdepth, hqueue, hbp]
  exact h si s hs

/-- **One round** keeps what is known of the signals. -/
theorem Signalled.step (h : Signalled t d) (r : Round) : Signalled t (d.step r) := by
  have hchecks := d.step_checks r
  generalize d.step r = d' at hchecks ⊢
  cases hchecks with
  | steady d' hsteady => exact h.steady hsteady
  | checked d₁ hsteady => exact (h.steady hsteady).afterStage r

/-- While the main loop runs, the streams are settled. -/
theorem settled_step (h : d.state = .running → d.Settled) (r : Round)
    (hrun : (d.step r).state = .running) : (d.step r).Settled := by
  have hchecks := d.step_checks r
  generalize d.step r = d' at hchecks hrun ⊢
  cases hchecks with
  | steady d' hsteady hidle =>
      obtain ⟨hrunning, hquiet⟩ := hidle hrun
      exact (h hrunning).quiet hquiet hsteady
  | checked d₁ hsteady => exact d₁.settled_afterStage r

/-- Backpressure has a reason: a stream under it is full, or above its low watermark. -/
def Firm (d : FlowDriver) : Prop :=
  ∀ (si : ℕ) (s : StreamState), d.streams[si]? = some s → s.backpressure.isActive = true →
    s.queue.len = s.queue.capacity ∨ s.lowWatermarkDepth < s.queue.len

theorem firm_afterStage (d : FlowDriver) (r : Round) : (d.afterStage r).Firm := by
  intro si s' hs' hactive
  rw [getElem?_afterStage] at hs'
  obtain ⟨s, hs, rfl⟩ := Option.map_eq_some_iff.mp hs'
  obtain ⟨-, hqueue, -⟩ := s.checkBackpressure_frame r.finish
  rw [s.lowWatermarkDepth_checkBackpressure r.finish, hqueue]
  have hchecked := s.checkBackpressure_checked r.finish
  generalize (s.checkBackpressure r.finish).1 = signal at hchecked
  generalize (s.checkBackpressure r.finish).2 = s' at hchecked hactive
  cases hchecked with
  | kept _ hheld => exact .inr (hheld hactive)
  | paused s' _ _ hfull => exact .inl hfull
  | released s' _ hinactive =>
      rw [hinactive] at hactive
      cases hactive

theorem Firm.quiet (h : d.Firm) (hquiet : Quiet d d') (hsteady : Steady d d') : d'.Firm := by
  intro si s' hs' hactive
  obtain ⟨s, hs, -, hratio, hbp⟩ := hsteady.exists_stream hs'
  obtain ⟨s'', hs'', -, hqueue, -⟩ := hquiet.stream si s hs
  obtain rfl := Option.some.inj (hs'.symm.trans hs'')
  rw [hbp] at hactive
  rw [StreamState.lowWatermarkDepth, hratio, hqueue]
  exact h si s hs hactive

/-- While the main loop runs, backpressure has a reason. -/
theorem firm_step (h : d.state = .running → d.Firm) (r : Round)
    (hrun : (d.step r).state = .running) : (d.step r).Firm := by
  have hchecks := d.step_checks r
  generalize d.step r = d' at hchecks hrun ⊢
  cases hchecks with
  | steady d' hsteady hidle =>
      obtain ⟨hrunning, hquiet⟩ := hidle hrun
      exact (h hrunning).quiet hquiet hsteady
  | checked d₁ hsteady => exact d₁.firm_afterStage r

/-- No round moves a watermark. -/
theorem lowWatermarkDepth_step (d : FlowDriver) (r : Round) {si : ℕ} {s s' : StreamState}
    (hs : d.streams[si]? = some s) (hs' : (d.step r).streams[si]? = some s') :
    s'.lowWatermarkDepth = s.lowWatermarkDepth := by
  have hchecks := d.step_checks r
  generalize d.step r = d' at hchecks hs'
  cases hchecks with
  | steady d' hsteady =>
      obtain ⟨s'', hs'', -, hratio, -, hcapacity⟩ := hsteady.stream si s hs
      obtain rfl := Option.some.inj (hs'.symm.trans hs'')
      rw [StreamState.lowWatermarkDepth, StreamState.lowWatermarkDepth, hratio, hcapacity]
  | checked d₁ hsteady =>
      obtain ⟨s₁, hs₁, -, hratio, -, hcapacity⟩ := hsteady.stream si s hs
      rw [getElem?_afterStage, hs₁, Option.map_some, Option.some.injEq] at hs'
      rw [← hs', s₁.lowWatermarkDepth_checkBackpressure r.finish, StreamState.lowWatermarkDepth,
        StreamState.lowWatermarkDepth, hratio, hcapacity]

/-- **When the state of a stream changes**: it becomes active only when it is full, and leaves
this state only at its low watermark. -/
theorem changed_step (d : FlowDriver) (r : Round) {si : ℕ} {s s' : StreamState}
    (hs : d.streams[si]? = some s) (hs' : (d.step r).streams[si]? = some s') :
    (s.backpressure.isActive = false → s'.backpressure.isActive = true →
        s'.queue.len = s'.queue.capacity) ∧
      (s.backpressure.isActive = true → s'.backpressure.isActive = false →
        s'.queue.len ≤ s'.lowWatermarkDepth) := by
  have hchecks := d.step_checks r
  generalize d.step r = d' at hchecks hs'
  cases hchecks with
  | steady d' hsteady =>
      obtain ⟨s'', hs'', -, -, hbp, -⟩ := hsteady.stream si s hs
      obtain rfl := Option.some.inj (hs'.symm.trans hs'')
      rw [hbp]
      exact ⟨fun h h' => absurd (h.symm.trans h') (by simp),
        fun h h' => absurd (h.symm.trans h') (by simp)⟩
  | checked d₁ hsteady =>
      obtain ⟨s₁, hs₁, -, -, hbp, -⟩ := hsteady.stream si s hs
      rw [getElem?_afterStage, hs₁, Option.map_some, Option.some.injEq] at hs'
      subst hs'
      obtain ⟨-, hqueue, -⟩ := s₁.checkBackpressure_frame r.finish
      rw [← hbp, s₁.lowWatermarkDepth_checkBackpressure r.finish, hqueue]
      have hchecked := s₁.checkBackpressure_checked r.finish
      generalize (s₁.checkBackpressure r.finish).1 = signal at hchecked
      generalize (s₁.checkBackpressure r.finish).2 = s' at hchecked ⊢
      cases hchecked with
      | kept =>
          exact ⟨fun h h' => absurd (h.symm.trans h') (by simp),
            fun h h' => absurd (h.symm.trans h') (by simp)⟩
      | paused s' hinactive hactive hfull =>
          exact ⟨fun _ _ => hfull, fun h => absurd (hinactive.symm.trans h) (by simp)⟩
      | released s' hactive hinactive hlow =>
          exact ⟨fun h => absurd (hactive.symm.trans h) (by simp), fun _ _ => hlow⟩

end Runs

end FlowDriver

namespace BuiltFlow

open FlowDriver

variable (f : BuiltFlow)

theorem signalled_run (rounds : List Round) : Signalled f.config.topology (f.run rounds) := by
  induction rounds using List.reverseRecOn with
  | nil =>
      obtain ⟨-, hspec⟩ := spawnStreamsFrom_spec f.built
      refine ⟨fun si s hs => ?_, rfl, rfl, fun si s hs => ⟨0, rfl, ?_⟩, rfl⟩
      · simpa using (hspec si s hs).2.1
      · simp [(hspec si s hs).2.2.2.1, BackpressureState.isActive]
  | append_singleton rounds r ih =>
      rw [f.run_snoc]
      exact ih.step r

theorem settled_run (rounds : List Round) (hrun : (f.run rounds).state = .running) :
    (f.run rounds).Settled := by
  induction rounds using List.reverseRecOn with
  | nil =>
      obtain ⟨-, hspec⟩ := spawnStreamsFrom_spec f.built
      intro si s hs _
      obtain ⟨-, -, hlen, hbp, -⟩ := hspec si s hs
      have hcap := s.queue.capacity_pos
      exact ⟨fun _ => by omega, fun h => by simp [hbp, BackpressureState.isActive] at h⟩
  | append_singleton rounds r ih =>
      rw [f.run_snoc] at hrun ⊢
      exact settled_step ih r hrun

theorem firm_run (rounds : List Round) (hrun : (f.run rounds).state = .running) :
    (f.run rounds).Firm := by
  induction rounds using List.reverseRecOn with
  | nil =>
      obtain ⟨-, hspec⟩ := spawnStreamsFrom_spec f.built
      intro si s hs hactive
      rw [(hspec si s hs).2.2.2.1] at hactive
      cases hactive
  | append_singleton rounds r ih =>
      rw [f.run_snoc] at hrun ⊢
      exact firm_step ih r hrun

end BuiltFlow

/-- **Hysteresis.**  Along every run the signals of a stream alternate, beginning with a pause,
and the stream is under backpressure exactly after a pause.  It becomes active only when it is
full and stays so down to its low watermark.  The signals delivered are those emitted, in their
order, each to the source that feeds the stream, if there is one. -/
theorem backpressure_hysteresis (f : BuiltFlow) (rounds : List Round) (si : ℕ) (s : StreamState)
    (hs : (f.run rounds).streams[si]? = some s)
    (hlow : s.lowWatermarkDepth < s.queue.capacity) :
    (∃ n, signals ⟨si⟩ (f.run rounds).events = alternating n ∧
        (s.backpressure.isActive = true ↔ n % 2 = 1)) ∧
      (∀ (r : Round) (s' : StreamState), (f.run (rounds ++ [r])).streams[si]? = some s' →
        (s.backpressure.isActive = false → s'.backpressure.isActive = true →
            s'.queue.len = s'.queue.capacity) ∧
          (s.backpressure.isActive = true → s'.backpressure.isActive = false →
            s'.queue.len ≤ s'.lowWatermarkDepth)) ∧
      ((f.run rounds).state = .running →
        (s.backpressure.isActive = false → s.queue.len < s.queue.capacity) ∧
          (s.backpressure.isActive = true → s.lowWatermarkDepth < s.queue.len)) ∧
      notifications (f.run rounds).events =
        (emitted (f.run rounds).events).filterMap (recipient f.config.topology) := by
  have hsignalled := f.signalled_run rounds
  refine ⟨hsignalled.alternate si s hs, fun r s' hs' => ?_,
    fun hrun => f.settled_run rounds hrun si s hs hlow, hsignalled.delivered⟩
  rw [f.run_snoc] at hs'
  exact FlowDriver.changed_step _ r hs hs'

/-- A pull fills the stream, and the source is told to pause; the sink empties it, and the source
is told to go on. -/
theorem backpressure_hysteresis_pairFlow :
    (∃ n, signals ⟨0⟩ (pairFlow.run (List.replicate 2 (quietRound (forwarding 1)))).events =
        alternating n) ∧
      notifications (pairFlow.run (List.replicate 2 (quietRound (forwarding 1)))).events =
        [(⟨0⟩, .pause), (⟨0⟩, .ready)] := by
  have hlt : 0 < (pairFlow.run (List.replicate 2 (quietRound (forwarding 1)))).streams.length := by
    decide
  have hlow : ∀ s ∈ (pairFlow.run (List.replicate 2 (quietRound (forwarding 1)))).streams,
      s.lowWatermarkDepth < s.queue.capacity := by
    decide
  obtain ⟨⟨n, hn, -⟩, -, -, hdelivered⟩ :=
    backpressure_hysteresis pairFlow (List.replicate 2 (quietRound (forwarding 1))) 0 _
      (List.getElem?_eq_getElem hlt) (hlow _ (List.getElem_mem hlt))
  exact ⟨⟨n, hn⟩, hdelivered.trans (by decide)⟩

end Torvyn.Reactor
