/-
# Exactly-once delivery along a chain

A run of a linear flow in which nothing fails goes through four phases: the source's
elements are carried along the chain one by one, completion is propagated, the drain
finds nothing to do, and the run is complete.  `phase_run` says where a run is after
each number of rounds, and `linear_exactly_once` what the sink has received by then.
-/
import Torvyn.Reactor.Linear
import Torvyn.Reactor.Loss
import Torvyn.Reactor.Stall

namespace Torvyn.Reactor

/-! ## Runs without faults -/

/-- The executed stage gets the answer it should: the source gives its next element, or
none after the last; a processor gives the output of its function; the sink accepts. -/
def Answers (fn : ℕ → StreamElement → OutputElement) (source : List OutputElement)
    (d : FlowDriver) (r : Round) (e : StageExecution) : Prop :=
  match e.action with
  | .pullFromSource => r.invoker.pull e.componentId = .ok source[pulls d.events]?
  | .processElement _ =>
      ∀ x, r.invoker.process e.componentId x = .ok (.output (fn e.stageIndex x))
  | .pushToSink _ => ∀ x, ∃ signal, r.invoker.push e.componentId x = .ok signal

/-- A round in which nobody cancels, the flow's deadline does not pass and no invocation
fails. -/
structure FaultFree (fn : ℕ → StreamElement → OutputElement) (source : List OutputElement)
    (d : FlowDriver) (r : Round) : Prop where
  uncancelled : r.cancelBefore = none ∧ r.cancelDuring = none
  deadline : r.wake = .deadline → d.deadlinePassed r.finish = false
  answers : ∀ e, d.chosen r = some e → Answers fn source d r e

/-- A run of such rounds. -/
def FaultFreeRun (f : SpawnedFlow) (fn : ℕ → StreamElement → OutputElement)
    (source : List OutputElement) (rounds : List Round) : Prop :=
  ∀ before r after, rounds = before ++ r :: after → FaultFree fn source (f.run before) r

/-- The instant at which the source is asked for its element of number `k`: in a chain
with `m` processors every element takes `m + 2` rounds. -/
def pulledAt (rounds : List Round) (m k : ℕ) : ℕ :=
  (rounds[k * (m + 2)]?.map Round.timestampNs).getD 0

/-! ## Carrying on -/

section Step

variable {t : FlowTopology} {m : ℕ} {c : Chain t m} {fn : ℕ → StreamElement → OutputElement}
  {clock : ℕ → ℕ} {source : List OutputElement} {k j : ℕ} {d : FlowDriver} {r : Round}

/-- A round of the main loop that executes a stage without an error. -/
theorem step_of_ok (hrun : d.state = .running) (hcancel : d.cancellation.isCancelled = false)
    (hr : r.cancelBefore = none ∧ r.cancelDuring = none) {e : StageExecution}
    (he : d.nextReady = some e) (hok : (d.executeStage r e).2 = .ok ()) :
    d.step r = (d.executeStage r e).1.afterStage r := by
  have hbefore : d.cancelBy r.cancelBefore = d := by
    rw [hr.1]
    rfl
  have hstage : d.runStage r e = ((d.executeStage r e).1.afterStage r, .next) := by
    simp only [FlowDriver.runStage, hok, hr.2]
    rfl
  simp only [FlowDriver.step, hrun, FlowDriver.iterate, hbefore, hcancel, he, hstage,
    Bool.false_eq_true, if_false]

/-- The stage that is ready is executed. -/
theorem chosen_of_running (h : Carrying c fn clock source k j d) (hfree : FaultFree fn source d r)
    {e : StageExecution} (he : d.nextReady = some e) : d.chosen r = some e := by
  have hcancel : (d.cancelBy r.cancelBefore).cancellation.isCancelled = false := by
    rw [hfree.uncancelled.1]
    exact h.uncancelled
  simp only [FlowDriver.chosen, h.state, hcancel, he, Bool.false_eq_true, if_false]

/-- The element under way is carried on by one position. -/
theorem Carrying.step (ht : t.Valid) (hinv : DriverInv t d)
    (h : Carrying c fn clock source k j d) (hj : j ≤ m + 1) (hk : k < source.length)
    (hclock : j = 0 → r.timestampNs = clock k) (hfree : FaultFree fn source d r) :
    if j = m + 1 then Carrying c fn clock source (k + 1) 0 (d.step r)
    else Carrying c fn clock source k (j + 1) (d.step r) := by
  obtain ⟨stage, hstage, he⟩ := h.nextReady ht hinv hj fun _ => hk
  set e : StageExecution := ⟨stage.componentId, c.stage j,
    if j = 0 then .pullFromSource
    else if j = m + 1 then .pushToSink ⟨c.stream (j - 1)⟩
    else .processElement ⟨c.stream (j - 1)⟩⟩ with hedef
  have hanswers := hfree.answers e (chosen_of_running h hfree he)
  set d₀ : FlowDriver := { d with currentElementSequence := none } with hd₀
  have h₀ : Carrying c fn clock source k j d₀ :=
    ⟨h.state, h.uncancelled, h.sequence, h.pulls_eq, h.received_eq, h.streams⟩
  have hindex₀ : d₀.streamIndex = .build t := hinv.streamIndex
  have hw₀ : Wired t d₀.streams := hinv.streams.wired
  obtain ⟨element, helement⟩ : ∃ element, source[k]? = some element :=
    ⟨_, List.getElem?_eq_getElem hk⟩
  have haction : (d₀.executeAction r e).2 = .ok () ∧
      if j = m + 1 then Carrying c fn clock source (k + 1) 0 (d₀.executeAction r e).1
      else Carrying c fn clock source k (j + 1) (d₀.executeAction r e).1 := by
    cases j with
    | zero =>
        rw [if_neg (by omega)]
        have hpull : r.invoker.pull stage.componentId = .ok (some element) := by
          have : r.invoker.pull stage.componentId = .ok source[pulls d.events]? := hanswers
          rw [this, h.pulls_eq, if_pos rfl, helement]
        exact h₀.executePull hindex₀ helement (hclock rfl) hpull
    | succ i =>
        by_cases hi : i = m
        · subst hi
          have heq : e = ⟨stage.componentId, c.stage (i + 1), .pushToSink ⟨c.stream i⟩⟩ := by
            rw [hedef, if_neg (Nat.succ_ne_zero i), if_pos rfl, Nat.add_sub_cancel]
          rw [heq] at hanswers ⊢
          rw [if_pos rfl]
          exact h₀.executePush hw₀ helement hanswers
        · have heq : e = ⟨stage.componentId, c.stage (i + 1), .processElement ⟨c.stream i⟩⟩ := by
            rw [hedef, if_neg (Nat.succ_ne_zero i), if_neg (by omega), Nat.add_sub_cancel]
          rw [heq] at hanswers ⊢
          rw [if_neg (by omega)]
          exact h₀.executeProcess hindex₀ hw₀ (by omega) helement hanswers
  have hstep := step_of_ok h.state h.uncancelled hfree.uncancelled he haction.1
  rw [hstep]
  by_cases hlast : j = m + 1
  · rw [if_pos hlast] at haction ⊢
    exact (haction.2.recordExecution r e _).afterStage r
  · rw [if_neg hlast] at haction ⊢
    exact (haction.2.recordExecution r e _).afterStage r

end Step

/-! ## Nothing left to do -/

/-- All elements have been received and counted, and all queues are empty. -/
structure Settled {t : FlowTopology} {m : ℕ} (c : Chain t m)
    (fn : ℕ → StreamElement → OutputElement) (clock : ℕ → ℕ) (source : List OutputElement)
    (d : FlowDriver) : Prop where
  received_eq : received d.events = image c fn clock source
  streams : ∀ s ∈ d.streams, s.queue.len = 0 ∧ s.metrics.elementsTotal = source.length

/-- The main loop after the source's last element: only completion is left. -/
structure Waiting {t : FlowTopology} {m : ℕ} (c : Chain t m)
    (fn : ℕ → StreamElement → OutputElement) (clock : ℕ → ℕ) (source : List OutputElement)
    (d : FlowDriver) : Prop extends Settled c fn clock source d where
  state : d.state = .running
  reason : d.cancellation.reason = none
  complete : completeAt d.streams (c.stream 0) = true

section Settled

variable {t : FlowTopology} {m : ℕ} {c : Chain t m} {fn : ℕ → StreamElement → OutputElement}
  {clock : ℕ → ℕ} {source : List OutputElement} {d d' : FlowDriver} {r : Round}

/-- What keeps a settled state. -/
theorem Settled.of_frame (h : Settled c fn clock source d)
    (hevents : ∃ more, d'.events = d.events ++ more ∧ ∀ ev ∈ more, ev.pushedElement = none)
    (hstreams : ∀ s' ∈ d'.streams, ∃ s ∈ d.streams, s'.queue.len ≤ s.queue.len ∧
      s'.metrics.elementsTotal = s.metrics.elementsTotal) : Settled c fn clock source d' := by
  obtain ⟨more, hmore, hnone⟩ := hevents
  refine ⟨by rw [hmore, received_append hnone, h.received_eq], fun s' hs' => ?_⟩
  obtain ⟨s, hs, hlen, htotal⟩ := hstreams s' hs'
  obtain ⟨hzero, hcount⟩ := h.streams s hs
  exact ⟨by omega, htotal.trans hcount⟩

/-- Marking streams moves no element. -/
theorem Marks.load {marked : ℕ → Prop} {streams streams' : List StreamState}
    (h : Marks marked streams streams') {s' : StreamState} (hs' : s' ∈ streams') :
    ∃ s ∈ streams, s'.queue.len ≤ s.queue.len ∧
      s'.metrics.elementsTotal = s.metrics.elementsTotal := by
  obtain ⟨si, hsi⟩ := List.mem_iff_getElem?.mp hs'
  have hlt := (List.getElem?_eq_some_iff.mp hsi).1
  rw [h.length_eq] at hlt
  have hs := List.getElem?_eq_getElem hlt
  refine ⟨_, List.getElem_mem hlt, ?_⟩
  rcases h.stream si _ hs with ⟨-, hs₁⟩ | ⟨-, hs₁⟩ <;>
    obtain rfl := Option.some.inj (hsi.symm.trans hs₁) <;> exact ⟨le_rfl, rfl⟩

theorem Settled.propagateStage (h : Settled c fn clock source d) (v : ℕ) :
    Settled c fn clock source (d.propagateStage v) :=
  h.of_frame ⟨[], by rw [FlowDriver.events_propagateStage, List.append_nil], by simp⟩
    fun _ hs' => (d.propagateStage_marks v).load hs'

theorem Settled.foldl_propagateStage (vs : List ℕ) (h : Settled c fn clock source d) :
    Settled c fn clock source (vs.foldl FlowDriver.propagateStage d) := by
  induction vs generalizing d with
  | nil => exact h
  | cons v vs ih => exact ih (h.propagateStage v)

theorem Settled.beginDrain (h : Settled c fn clock source d) (r : Round) :
    Settled c fn clock source (d.beginDrain r) := by
  obtain ⟨-, hevents, hmarks⟩ :=
    FlowDriver.foldl_markSource (List.range d.topology.stages.length) d
  refine h.of_frame ⟨[_], congrArg (· ++ [_]) hevents, ?_⟩ fun _ hs' => hmarks.load hs'
  simp [FlowEvent.pushedElement]

theorem Settled.finish (h : Settled c fn clock source d) (r : Round) :
    Settled c fn clock source (d.finish r) := by
  obtain ⟨more, hmore, hshape, -⟩ := d.finish_events r
  refine h.of_frame ⟨more, hmore, fun ev hev => ?_⟩ fun s' hs' => ?_
  · rcases hshape ev hev with ⟨s, -, -, rfl⟩ | ⟨_, _, rfl⟩ | ⟨_, rfl⟩ <;> rfl
  · obtain ⟨s, hs, rfl⟩ := List.mem_map.mp hs'
    exact ⟨s, hs, by rw [StreamState.discardAll, s.queue.drainAll_spec.2]; exact Nat.zero_le _, rfl⟩

/-- With all queues empty and the source done, no stage is ready. -/
theorem Settled.nextReady (ht : t.Valid) (hinv : DriverInv t d) (h : Settled c fn clock source d)
    (hcomplete : completeAt d.streams (c.stream 0) = true) : d.nextReady = none := by
  rw [FlowDriver.nextReady, hinv.topology, hinv.streamIndex]
  cases hchosen : nextReadyStage t d.streams (.build t) with
  | none => rfl
  | some e =>
      exfalso
      obtain ⟨stage, hstage, -, haction, -⟩ := nextReadyStage_spec ht hchosen
      obtain ⟨hun, hcases⟩ := stageAction_cases hinv.streams.wired.id_eq haction
      obtain ⟨i, hi, hstagei⟩ := c.stage_surj _ (List.getElem?_eq_some_iff.mp hstage).1
      rw [← hstagei] at hstage hun hcases
      rcases hcases with ⟨hrole, -⟩ | ⟨si, -, hin, -⟩
      · obtain ⟨stage', hstage', hrole'⟩ := c.exists_stage hi
        obtain rfl := Option.some.inj (hstage'.symm.trans hstage)
        have hi₀ : i = 0 := by
          by_contra hne
          rw [hrole, if_neg hne] at hrole'
          split at hrole' <;> cases hrole'
        subst hi₀
        rw [hrole] at hun
        obtain ⟨o, ho, hcan⟩ := hun
        obtain ⟨-, rfl⟩ := c.eq_of_mem_outputs hi ho
        have hopen := ((canProduceAt_iff hinv.streams.credit
          (hinv.streams.wired.lt_of_mem_outputs ho)).mp hcan).1
        rw [hcomplete] at hopen
        cases hopen
      · obtain ⟨s, hs, hpos⟩ := hasInputAt_iff.mp hin
        have := (h.streams s (List.mem_of_getElem? hs)).1
        omega

theorem Settled.log (h : Settled c fn clock source d) {ev : FlowEvent}
    (hev : ev.pushedElement = none) : Settled c fn clock source (d.log ev) :=
  h.of_frame ⟨[ev], rfl, by simpa using hev⟩ fun s hs => ⟨s, hs, le_rfl, rfl⟩

theorem Settled.markComplete (h : Settled c fn clock source d) (sis : List ℕ) :
    Settled c fn clock source (d.markComplete sis) :=
  h.of_frame ⟨[], (List.append_nil _).symm, by simp⟩
    fun _ hs' => (d.marks_markComplete sis).load hs'

theorem Settled.recordExecution (h : Settled c fn clock source d) (r : Round) (e : StageExecution)
    (result : Except FlowError Unit) : Settled c fn clock source (d.recordExecution r e result) := by
  obtain ⟨more, hmore, hquiet⟩ := recordExecution_quiet d r e result
  refine h.of_frame ⟨more, hmore, fun ev hev => (hquiet ev hev).2⟩ fun s hs => ⟨s, ?_, le_rfl, rfl⟩
  rwa [← (d.recordExecution_frame r e result).1]

theorem Settled.afterStage (h : Settled c fn clock source d) (r : Round) :
    Settled c fn clock source (d.afterStage r) := by
  obtain ⟨more, hmore, hquiet⟩ := afterStage_quiet d r
  refine h.of_frame ⟨more, hmore, fun ev hev => (hquiet ev hev).2⟩ fun s' hs' => ?_
  rw [(d.afterStage_frame r).1] at hs'
  obtain ⟨s, hs, rfl⟩ := List.mem_map.mp hs'
  obtain ⟨-, hqueue, -, -, htotal⟩ := s.checkBackpressure_frame r.finish
  exact ⟨s, hs, by rw [hqueue], htotal⟩

/-- Once the last element has arrived everything is settled. -/
theorem Carrying.settled (hinv : DriverInv t d) (h : Carrying c fn clock source source.length 0 d) :
    Settled c fn clock source d := by
  refine ⟨?_, fun s hs => ?_⟩
  · rw [h.received_eq, List.take_of_length_le]
    simp [image]
  · obtain ⟨si, hsi⟩ := List.mem_iff_getElem?.mp hs
    have hlt := (List.getElem?_eq_some_iff.mp hsi).1
    rw [hinv.streams.wired.length_eq] at hlt
    obtain ⟨i, hi, rfl⟩ := c.stream_surj si hlt
    obtain ⟨s', hs', -, htotal, hcontents⟩ := h.streams i hi
    obtain rfl := Option.some.inj (hsi.symm.trans hs')
    rw [← s.queue.length_contents, hcontents, htotal]
    simp

/-- **The source has no more elements**: it is done, and only completion is left. -/
theorem Carrying.step_none (ht : t.Valid) (hinv : DriverInv t d)
    (h : Carrying c fn clock source source.length 0 d) (hfree : FaultFree fn source d r) :
    Waiting c fn clock source (d.step r) := by
  obtain ⟨stage, hstage, he⟩ := h.nextReady ht hinv (Nat.zero_le _) fun hne => absurd rfl hne
  rw [if_pos rfl] at he
  set e : StageExecution := ⟨stage.componentId, c.stage 0, .pullFromSource⟩ with hedef
  have hpull : r.invoker.pull stage.componentId = .ok none := by
    have hanswer : r.invoker.pull stage.componentId = .ok source[pulls d.events]? :=
      hfree.answers e (chosen_of_running h hfree he)
    rw [hanswer, h.pulls_eq, if_pos rfl, List.getElem?_eq_none le_rfl]
  set d₀ : FlowDriver := { d with currentElementSequence := none } with hd₀
  set dl := d₀.log (.invoked stage.componentId (.pull (.ok none))) with hdl
  have hexec : d₀.executeAction r e = (dl.markComplete [c.stream 0], .ok ()) := by
    have hout : d₀.streamIndex.outputs (c.stage 0) = [c.stream 0] := by
      rw [← c.outputs_eq (Nat.zero_le m), ← hinv.streamIndex]
    show d₀.executePull r (c.stage 0) stage.componentId = _
    simp only [FlowDriver.executePull, hpull, Answer.toExcept]
    rw [← hout]
    rfl
  set dr := (dl.markComplete [c.stream 0]).recordExecution r e (.ok ()) with hdr
  have hstep : d.step r = dr.afterStage r := by
    rw [step_of_ok h.state h.uncancelled hfree.uncancelled he (congrArg Prod.snd hexec)]
    show ((d₀.executeAction r e).1.recordExecution r e (d₀.executeAction r e).2).afterStage r = _
    rw [hexec]
  have hsettled₀ : Settled c fn clock source d₀ := ⟨(h.settled hinv).received_eq, (h.settled hinv).streams⟩
  have hsettled₁ : Settled c fn clock source dl := hsettled₀.log rfl
  have hsettled := ((hsettled₁.markComplete [c.stream 0]).recordExecution r e (.ok ())).afterStage r
  obtain ⟨hstreams₁, hcontext₁, -⟩ := (dl.markComplete [c.stream 0]).recordExecution_frame r e (.ok ())
  obtain ⟨hstreams₂, hcontext₂, -⟩ := dr.afterStage_frame r
  have hcontext : (dr.afterStage r).context = d.context := hcontext₂.trans hcontext₁
  rw [hstep]
  refine ⟨hsettled, (congrArg FlowDriver.Context.state hcontext).trans h.state, ?_, ?_⟩
  · have hcancellation : (dr.afterStage r).cancellation = d.cancellation :=
      congrArg FlowDriver.Context.cancellation hcontext
    rw [hcancellation]
    simpa [FlowCancellation.isCancelled] using h.uncancelled
  · rw [hstreams₂, (read_checkAll _ _ _).2.2.1, hstreams₁]
    have hlt := hinv.streams.wired.lt_of_mem_outputs (c.links (Nat.zero_le m)).mem_outputs
    exact ((dl.marks_markComplete [c.stream 0]).read hlt).2.2.2.mpr
      (Or.inr (List.mem_singleton_self _))

/-- **Waiting for completion**: the round either propagates completion further or, with all
streams complete, begins the drain. -/
theorem Waiting.step (ht : t.Valid) (hinv : DriverInv t d) (h : Waiting c fn clock source d)
    (hfree : FaultFree fn source d r) :
    if d.propagateProducerComplete.allStreamsComplete then
      (d.step r).state = .draining ∧ (d.step r).drainReason = some .sourceComplete ∧
        Settled c fn clock source (d.step r)
    else d.step r = d.propagateProducerComplete ∧ Waiting c fn clock source (d.step r) := by
  have hsettled : Settled c fn clock source d.propagateProducerComplete :=
    h.toSettled.foldl_propagateStage _
  obtain ⟨hcontext, -⟩ := d.propagateProducerComplete_frame
  set dp := d.propagateProducerComplete with hdp
  have hreason : dp.cancellation.reason = none := by
    have hcancellation : dp.cancellation = d.cancellation :=
      congrArg FlowDriver.Context.cancellation hcontext
    rw [hcancellation, h.reason]
  have hbefore : d.cancelBy r.cancelBefore = d := by
    rw [hfree.uncancelled.1]
    rfl
  have hduring : dp.cancelBy r.cancelDuring = dp := by
    rw [hfree.uncancelled.2]
    rfl
  have hcancel : d.cancellation.isCancelled = false := by
    rw [FlowCancellation.isCancelled, h.reason]
    rfl
  have hiterate : d.iterate r = d.idle r := by
    simp only [FlowDriver.iterate, hbefore, hcancel, h.toSettled.nextReady ht hinv h.complete,
      Bool.false_eq_true, if_false]
  by_cases hall : dp.allStreamsComplete = true
  · rw [if_pos hall]
    have hidle : d.idle r = (dp.cancelBy (some .sourceComplete), .stop) := by
      simp only [FlowDriver.idle, ← hdp, hduring, hall, if_true]
    have hstep : d.step r = (dp.cancelBy (some .sourceComplete)).beginDrain r := by
      simp only [FlowDriver.step, h.state, hiterate, hidle]
    have hsettled' : Settled c fn clock source (dp.cancelBy (some .sourceComplete)) :=
      ⟨hsettled.received_eq, hsettled.streams⟩
    rw [hstep]
    refine ⟨rfl, ?_, hsettled'.beginDrain r⟩
    show some (dp.cancellation.reason.getD .sourceComplete) = _
    rw [hreason]
    rfl
  · rw [if_neg hall]
    have hidle : d.idle r = (dp, .next) := by
      simp only [FlowDriver.idle, ← hdp, hduring, if_neg hall]
      cases hwake : r.wake with
      | cancelled =>
          have : dp.cancellation.isCancelled = false := by
            rw [FlowCancellation.isCancelled, hreason]
            rfl
          simp only [this, Bool.false_eq_true, if_false]
      | deadline =>
          have hpassed : dp.deadlinePassed r.finish = false := by
            have htimeouts : dp.timeouts = d.timeouts := congrArg FlowDriver.Context.timeouts hcontext
            have hstarted : dp.startedAt = d.startedAt := congrArg FlowDriver.Context.startedAt hcontext
            rw [FlowDriver.deadlinePassed, htimeouts, hstarted]
            exact hfree.deadline hwake
          simp only [hpassed, Bool.false_eq_true, if_false]
      | tick => rfl
    have hstep : d.step r = dp := by
      simp only [FlowDriver.step, h.state, hiterate, hidle]
    rw [hstep]
    refine ⟨rfl, hsettled, (congrArg FlowDriver.Context.state hcontext).trans h.state, hreason, ?_⟩
    have hlt := hinv.streams.wired.lt_of_mem_outputs (c.links (Nat.zero_le m)).mem_outputs
    exact ((d.foldl_propagateStage_read _).2 _ hlt).2.2 h.complete

/-- **A settled drain ends at once**, and completes the flow. -/
theorem Settled.step (ht : t.Valid) (hinv : DriverInv t d) (h : Settled c fn clock source d)
    (hdrain : d.state = .draining) (hreason : d.drainReason = some .sourceComplete) :
    (d.step r).state = .completed ∧ Settled c fn clock source (d.step r) := by
  have hnil : (StreamIndex.build t).inputs (c.stage 0) = [] := by
    obtain ⟨stage, hstage, hrole⟩ := c.source
    exact (ht.inputs_eq_nil_iff hstage).mpr hrole
  have hnone := h.nextReady ht hinv
    (hinv.sources hdrain _ hnil _ (c.links (Nat.zero_le m)).mem_outputs)
  have hstep : d.step r = d.finish r := by
    simp only [FlowDriver.step, hdrain, FlowDriver.drainStep, hnone, ite_self]
  rw [hstep]
  refine ⟨?_, h.finish r⟩
  show terminalState d.drainReason = .completed
  rw [hreason]
  rfl

end Settled

/-! ## The phases of a run -/

/-- Where a run is after `n` rounds. -/
inductive Phase {t : FlowTopology} {m : ℕ} (c : Chain t m) (fn : ℕ → StreamElement → OutputElement)
    (clock : ℕ → ℕ) (source : List OutputElement) (n : ℕ) (d : FlowDriver) : Prop
  | carrying (k j : ℕ) (hn : n = k * (m + 2) + j) (hj : j ≤ m + 1) (hk : k ≤ source.length)
      (hlast : k = source.length → j = 0) (h : Carrying c fn clock source k j d)
  | waiting (d₀ : FlowDriver) (p : ℕ) (hn : n = source.length * (m + 2) + 1 + p)
      (hp : p < t.stages.length) (hd : d = FlowDriver.propagateProducerComplete^[p] d₀)
      (hinv : DriverInv t d₀) (h₀ : Waiting c fn clock source d₀) (h : Waiting c fn clock source d)
  | draining (hn : n ≤ source.length * (m + 2) + 1 + t.stages.length) (hstate : d.state = .draining)
      (hreason : d.drainReason = some .sourceComplete) (h : Settled c fn clock source d)
  | completed (hstate : d.state = .completed) (h : Settled c fn clock source d)

section Phase

variable {t : FlowTopology} {m : ℕ} {c : Chain t m} {fn : ℕ → StreamElement → OutputElement}
  {clock : ℕ → ℕ} {source : List OutputElement} {n : ℕ} {d : FlowDriver} {r : Round}

/-- Once every stage has had its turn, all streams are complete. -/
theorem Waiting.allStreamsComplete (ht : t.Valid) (hinv : DriverInv t d)
    (h : Waiting c fn clock source d) :
    (FlowDriver.propagateProducerComplete^[t.stages.length] d).allStreamsComplete = true := by
  refine FlowDriver.allStreamsComplete_of_iterate ht hinv.topology hinv.streamIndex
    hinv.streams.wired.length_eq (fun si hlt => ?_) fun v hnil o ho => ?_
  · have hs := List.getElem?_eq_getElem hlt
    rw [lenAt_eq hs]
    exact (h.streams _ (List.getElem_mem hlt)).1
  · obtain ⟨w, hw⟩ := links_of_mem_outputs ho
    obtain ⟨i, hi, rfl⟩ := c.stage_surj v (hw.lt_length ht).1
    have hi₀ : i = 0 := by
      by_contra hne
      obtain ⟨i, rfl⟩ := Nat.exists_eq_succ_of_ne_zero hne
      have hmem := (c.links (i := i) (by omega)).mem_inputs
      rw [hnil] at hmem
      exact absurd hmem List.not_mem_nil
    subst hi₀
    obtain ⟨-, rfl⟩ := c.eq_of_mem_outputs hi ho
    exact h.complete

/-- **One round takes a run on by one.** -/
theorem Phase.step (ht : t.Valid) (h : Phase c fn clock source n d)
    (hinv : d.state = .running ∨ d.state = .draining → DriverInv t d)
    (hinv' : (d.step r).state = .running → DriverInv t (d.step r))
    (hclock : ∀ k, n = k * (m + 2) → r.timestampNs = clock k) (hfree : FaultFree fn source d r) :
    Phase c fn clock source (n + 1) (d.step r) := by
  cases h with
  | carrying k j hn hj hk hlast h =>
      have hd := hinv (Or.inl h.state)
      rcases Nat.lt_or_ge k source.length with hlt | hge
      · have hstep := h.step ht hd hj hlt (fun hj₀ => hclock k (by omega)) hfree
        by_cases hjm : j = m + 1
        · rw [if_pos hjm] at hstep
          refine .carrying (k + 1) 0 ?_ (Nat.zero_le _) hlt (fun _ => rfl) hstep
          rw [hn, hjm]
          ring
        · rw [if_neg hjm] at hstep
          exact .carrying k (j + 1) (by omega) (by omega) hk (fun hk' => by omega) hstep
      · have hk' : k = source.length := le_antisymm hk hge
        have hj₀ := hlast hk'
        subst hk' hj₀
        have hwait := h.step_none ht hd hfree
        have hpos : 0 < t.stages.length := by
          obtain ⟨stage, hstage, -⟩ := c.source
          exact (Nat.zero_le _).trans_lt (List.getElem?_eq_some_iff.mp hstage).1
        exact .waiting (d.step r) 0 (by omega) hpos rfl (hinv' hwait.state) hwait hwait
  | waiting d₀ p hn hp hd hinv₀ h₀ h =>
      have hstep := h.step ht (hinv (Or.inl h.state)) hfree
      by_cases hall : d.propagateProducerComplete.allStreamsComplete = true
      · rw [if_pos hall] at hstep
        exact .draining (by omega) hstep.1 hstep.2.1 hstep.2.2
      · rw [if_neg hall] at hstep
        have hd' : d.step r = FlowDriver.propagateProducerComplete^[p + 1] d₀ := by
          rw [Function.iterate_succ_apply', ← hd, hstep.1]
        have hp' : p + 1 ≠ t.stages.length := by
          intro heq
          have hdone := h₀.allStreamsComplete ht hinv₀
          rw [← heq, ← hd', hstep.1] at hdone
          exact hall hdone
        exact .waiting d₀ (p + 1) (by omega) (by omega) hd' hinv₀ h₀ hstep.2
  | draining hn hstate hreason h =>
      obtain ⟨hstate', h'⟩ := h.step ht (hinv (Or.inr hstate)) hstate hreason
      exact .completed hstate' h'
  | completed hstate h =>
      have hstep : d.step r = d :=
        FlowDriver.step_of_not_live (by simp [hstate]) (by simp [hstate]) r
      rw [hstep]
      exact .completed hstate h

end Phase

/-- Where a fault-free run is after each number of rounds. -/
theorem phase_run (f : SpawnedFlow) {m : ℕ} (c : Chain f.config.topology m)
    (fn : ℕ → StreamElement → OutputElement) (source : List OutputElement) (rounds : List Round)
    (hfree : FaultFreeRun f fn source rounds) (before after : List Round)
    (hsplit : rounds = before ++ after) :
    Phase c fn (pulledAt rounds m) source before.length (f.run before) := by
  induction before using List.reverseRecOn generalizing after with
  | nil =>
      refine .carrying 0 0 (by simp) (Nat.zero_le _) (Nat.zero_le _) (fun _ => rfl) ?_
      obtain ⟨-, hspec⟩ := spawnStreamsFrom_spec f.built
      refine ⟨rfl, rfl, by simp [BuiltFlow.run, BuiltFlow.start, FlowDriver.enterRunning,
        FlowDriver.log, FlowDriver.new], rfl, rfl, fun i hi => ?_⟩
      have hlt := f.inv_start.streams.wired.lt_of_mem_outputs (c.links hi).mem_outputs
      have hs : f.start.streams[c.stream i]? = some f.start.streams[c.stream i] :=
        List.getElem?_eq_getElem hlt
      obtain ⟨-, -, hlen, -, hcomplete, hmetrics⟩ := hspec _ _ hs
      refine ⟨_, hs, hcomplete, ?_, ?_⟩
      · rw [hmetrics]
        simp [StreamMetrics.new]
      · rw [if_neg (Nat.succ_ne_zero i), ← List.length_eq_zero_iff, BoundedQueue.length_contents]
        exact hlen
  | append_singleton before r ih =>
      have hsplit' : rounds = before ++ r :: after := by rw [hsplit, List.append_assoc]; rfl
      have hrun := f.run_snoc before r
      rw [hrun, List.length_append, List.length_singleton]
      refine (ih (r :: after) hsplit').step f.valid (f.inv_run before) ?_ ?_
        (hfree before r after hsplit')
      · intro hstate
        rw [← hrun] at hstate ⊢
        exact f.inv_run _ (Or.inl hstate)
      · intro k hk
        rw [pulledAt, ← hk, hsplit', List.getElem?_append_right le_rfl, Nat.sub_self]
        rfl

/-- **Exactly-once delivery in order.**  In a run of a linear flow in which nobody cancels
and no invocation fails, the sink has at every moment received a prefix of the image of
the source's elements under the processors.  When the run has ended it has received the
whole image, the flow is completed, all queues are empty, and every stream has counted
every element.  And a long enough run has ended. -/
theorem linear_exactly_once (f : SpawnedFlow) {m : ℕ} (c : Chain f.config.topology m)
    (fn : ℕ → StreamElement → OutputElement) (source : List OutputElement) (rounds : List Round)
    (hfree : FaultFreeRun f fn source rounds) :
    received (f.run rounds).events <+: image c fn (pulledAt rounds m) source ∧
      ((f.run rounds).state.isTerminal = true → (f.run rounds).state = .completed ∧
        received (f.run rounds).events = image c fn (pulledAt rounds m) source ∧
        ∀ s ∈ (f.run rounds).streams,
          s.queue.len = 0 ∧ s.metrics.elementsTotal = source.length) ∧
      (source.length * (m + 2) + f.config.topology.stages.length + 2 ≤ rounds.length →
        (f.run rounds).state = .completed) := by
  have hphase := phase_run f c fn source rounds hfree rounds [] (List.append_nil _).symm
  cases hphase with
  | carrying k j hn hj hk hlast h =>
      refine ⟨h.received_eq ▸ List.take_prefix _ _, fun hterminal => ?_, fun hlong => ?_⟩
      · rw [h.state] at hterminal
        cases hterminal
      · have := Nat.mul_le_mul_right (m + 2) hk
        rcases Nat.lt_or_ge k source.length with hlt | hge
        · have hlt' := Nat.mul_le_mul_right (m + 2) (Nat.succ_le_of_lt hlt)
          rw [Nat.succ_mul] at hlt'
          omega
        · have := hlast (le_antisymm hk hge)
          omega
  | waiting d₀ p hn hp hd hinv h₀ h =>
      refine ⟨by rw [h.received_eq], fun hterminal => ?_, fun hlong => by omega⟩
      rw [h.state] at hterminal
      cases hterminal
  | draining hn hstate hreason h =>
      refine ⟨by rw [h.received_eq], fun hterminal => ?_, fun hlong => by omega⟩
      rw [hstate] at hterminal
      cases hterminal
  | completed hstate h =>
      exact ⟨by rw [h.received_eq], fun _ => ⟨hstate, h.received_eq, h.streams⟩, fun _ => hstate⟩

/-- A source, a processor and a sink; all streams have capacity one. -/
def chainConfig : FlowConfig := smallConfig [.source, .processor, .sink] [(0, 1), (1, 2)] 1

def chainFlow : SpawnedFlow where
  flowId := ⟨0⟩
  config := chainConfig
  streams := (spawnStreams ⟨0⟩ chainConfig).get (by decide)
  startedAt := 0
  wallClock := 0
  built := (Option.some_get _).symm
  validated := by decide

/-- The stages and streams of `chainFlow` are numbered as they are listed. -/
def chainFlowChain : Chain chainFlow.config.topology 1 where
  stage := id
  stream := id
  stage_inj := fun _ _ _ _ h => h
  stage_surj := fun v hv => ⟨v, Nat.le_of_lt_succ hv, rfl⟩
  stream_surj := fun si hsi => ⟨si, Nat.le_of_lt_succ hsi, rfl⟩
  link := fun i hi => by interval_cases i <;> exact ⟨_, rfl, rfl, rfl⟩
  source := ⟨_, rfl, rfl⟩
  processor := fun i hpos hi => by
    obtain rfl : i = 1 := by omega
    exact ⟨_, rfl, rfl⟩
  sink := ⟨_, rfl, rfl⟩

/-- A processor that adds one to the payload. -/
def increment (x : StreamElement) : OutputElement := smallElement (x.payload.resourceId.index + 1)

/-- A round in which the source answers with `output`. -/
def chainRound (output : Option OutputElement) : Round := quietRound
  { forwarding 1 with
    pull := fun _ => .ok output
    process := fun _ x => .ok (.output (increment x)) }

/-- The source has one element, which takes three rounds; five rounds end the run. -/
def chainRounds : List Round :=
  chainRound (some (smallElement 7)) :: List.replicate 7 (chainRound none)

theorem chainRounds_faultFree :
    FaultFreeRun chainFlow (fun _ => increment) [smallElement 7] chainRounds := by
  intro before r after hsplit
  have hbefore : before = chainRounds.take before.length := by rw [hsplit, List.take_left]
  have hr : chainRounds[before.length]? = some r := by
    rw [hsplit, List.getElem?_append_right le_rfl, Nat.sub_self]
    rfl
  have hlt : before.length < 8 := (List.getElem?_eq_some_iff.mp hr).1
  rw [hbefore]
  generalize before.length = n at hr hlt ⊢
  refine ⟨?_, ?_, fun e he => ?_⟩
  · interval_cases n <;> obtain rfl := Option.some.inj hr <;> exact ⟨rfl, rfl⟩
  · interval_cases n <;> obtain rfl := Option.some.inj hr <;> intro hwake <;> cases hwake
  · -- only the first four rounds execute a stage
    have hchosen : (chainFlow.run (chainRounds.take n)).chosen r =
        ([⟨⟨0⟩, 0, .pullFromSource⟩, ⟨⟨1⟩, 1, .processElement ⟨0⟩⟩, ⟨⟨2⟩, 2, .pushToSink ⟨1⟩⟩,
          ⟨⟨0⟩, 0, .pullFromSource⟩] : List StageExecution)[n]? := by
      interval_cases n <;> obtain rfl := Option.some.inj hr <;> decide
    rw [hchosen] at he
    interval_cases n <;> obtain rfl := Option.some.inj hr <;> cases he
    · show Answer.ok _ = Answer.ok _
      decide
    · exact fun x => rfl
    · exact fun x => ⟨_, rfl⟩
    · show Answer.ok _ = Answer.ok _
      decide

/-- The sink of `chainFlow` receives the incremented element. -/
theorem linear_exactly_once_chainFlow :
    received (chainFlow.run chainRounds).events <+:
        image chainFlowChain (fun _ => increment) (pulledAt chainRounds 1) [smallElement 7] ∧
      ((chainFlow.run chainRounds).state.isTerminal = true →
        (chainFlow.run chainRounds).state = .completed ∧
        received (chainFlow.run chainRounds).events =
          image chainFlowChain (fun _ => increment) (pulledAt chainRounds 1) [smallElement 7] ∧
        ∀ s ∈ (chainFlow.run chainRounds).streams,
          s.queue.len = 0 ∧ s.metrics.elementsTotal = [smallElement 7].length) ∧
      ([smallElement 7].length * (1 + 2) + chainFlow.config.topology.stages.length + 2 ≤
        chainRounds.length → (chainFlow.run chainRounds).state = .completed) :=
  linear_exactly_once chainFlow chainFlowChain (fun _ => increment) [smallElement 7] chainRounds
    chainRounds_faultFree

end Torvyn.Reactor
