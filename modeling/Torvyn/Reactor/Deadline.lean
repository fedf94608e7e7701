/-
# The flow deadline

The main loop looks at the deadline of its flow only while it waits, and it only waits when no
stage is ready.  While some stage is ready after the deadline the loop goes on executing
stages, and a flow whose streams are all complete by then ends as completed.
`deadline_kept_iff` says exactly in which runs the deadline is kept.
-/
import Torvyn.Data.GuardedRun
import Torvyn.Reactor.Run

namespace Torvyn.Reactor

/-- The report that every execution of a stage ends with. -/
def FlowEvent.isExecution : FlowEvent → Bool
  | .recordInvocation _ _ _ _ => true
  | _ => false

namespace FlowDriver

/-- The number of stages executed so far. -/
def executions (d : FlowDriver) : ℕ := d.events.countP FlowEvent.isExecution

/-! ## Executions are reported -/

section Executions

variable {d d' : FlowDriver}

/-- The log only grows, and so does the number of executions. -/
theorem executions_le_of_prefix (h : d.events <+: d'.events) : d.executions ≤ d'.executions :=
  h.sublist.countP_le

theorem prefix_log (event : FlowEvent) (h : d'.events = d.events) :
    d.events <+: (d'.log event).events := by
  rw [← h]
  exact List.prefix_append _ _

theorem prefix_pushPulled (d : FlowDriver) (r : Round) (element : OutputElement) (si : ℕ) :
    d.events <+: (d.pushPulled r element si).events := by
  cases hs : d.streams[si]? with
  | none =>
      have hevents : (d.pushPulled r element si).events = d.events := by
        simp only [pushPulled, hs]
      rw [hevents]
  | some s =>
      rw [pushPulled_eq r element hs]
      exact List.prefix_append _ _

theorem prefix_pushAll (input : StreamElementRef) (ts : List (OutputElement × ℕ))
    (d : FlowDriver) : d.events <+: (d.pushAll input ts).events := by
  induction ts generalizing d with
  | nil => exact List.prefix_rfl
  | cons t ts ih =>
      have hone : d.events <+: (d.pushOutput input t.1 t.2).events := by
        cases hs : d.streams[t.2]? with
        | none =>
            have hevents : (d.pushOutput input t.1 t.2).events = d.events := by
              simp only [pushOutput, hs]
            rw [hevents]
        | some s =>
            rw [pushOutput_eq input t.1 hs]
            exact List.prefix_append _ _
      exact hone.trans (ih _)

/-- Taking an input logs nothing. -/
theorem events_of_takeInput {id : StreamId} {elem : StreamElementRef}
    (h : d.takeInput id = some (elem, d')) : d'.events = d.events := by
  obtain ⟨si, -, h⟩ := Option.bind_eq_some_iff.mp h
  obtain ⟨s, -, h⟩ := Option.bind_eq_some_iff.mp h
  obtain ⟨elem', -, h⟩ := Option.map_eq_some_iff.mp h
  rw [← (Prod.mk.inj h).2]

theorem prefix_executeAction (d : FlowDriver) (r : Round) (e : StageExecution) :
    d.events <+: (d.executeAction r e).1.events := by
  unfold executeAction
  cases e.action with
  | pullFromSource =>
      have hlog := d.prefix_log (.invoked e.componentId (.pull (r.invoker.pull e.componentId))) rfl
      dsimp only [executePull]
      split
      · exact hlog
      · split
        · exact hlog.trans (prefix_pushPulled _ r _ _)
        · exact hlog
      · exact hlog
  | processElement inputStream =>
      dsimp only [executeProcess]
      split
      · exact List.prefix_rfl
      · rename_i elem d' htake
        split
        · exact prefix_log _ (events_of_takeInput htake)
        · exact (prefix_log _ (events_of_takeInput htake)).trans (prefix_pushAll _ _ _)
  | pushToSink inputStream =>
      dsimp only [executePush]
      split
      · exact List.prefix_rfl
      · rename_i elem d' htake
        split
        · exact prefix_log _ (events_of_takeInput htake)
        · exact (prefix_log _ (events_of_takeInput htake)).trans (prefix_log _ rfl)

/-- **An execution counts.** -/
theorem executions_lt_executeStage (d : FlowDriver) (r : Round) (e : StageExecution) :
    d.executions < (d.executeStage r e).1.executions := by
  set executed := { d with currentElementSequence := none }.executeAction r e with hexecuted
  have hprefix : d.events <+: executed.1.events :=
    prefix_executeAction { d with currentElementSequence := none } r e
  have hle := executions_le_of_prefix hprefix
  obtain ⟨startNs, endNs, status, hevents⟩ := events_recordExecution executed.1 r e executed.2
  have hlt : executed.1.executions < (executed.1.recordExecution r e executed.2).executions := by
    rw [executions, executions, hevents, List.countP_append, List.countP_cons_of_pos rfl]
    omega
  exact lt_of_le_of_lt hle hlt

end Executions

/-! ## Keeping the deadline -/

/-- The iteration begins after the deadline of a flow that has not been cancelled. -/
def Overdue (d : FlowDriver) (r : Round) : Prop :=
  d.state = .running ∧ (d.cancelBy r.cancelBefore).cancellation.isCancelled = false ∧
    d.deadlinePassed r.start = true

/-- What the runtime promises of an overdue iteration: the clock does not run backwards, and a
wait that begins after the deadline ends by it, or by a cancellation, and not by the tick. -/
def Timely (d : FlowDriver) (r : Round) : Prop :=
  d.Overdue r → r.start ≤ r.finish ∧
    (r.wake = .deadline ∨ (r.wake = .cancelled ∧ r.cancelDuring.isSome))

/-- An overdue iteration starts no stage and cancels the flow because of the deadline, unless
somebody else cancels it at the same time. -/
def DeadlineKept (d : FlowDriver) (r : Round) : Prop :=
  d.Overdue r → (d.step r).executions = d.executions ∧ (d.step r).state = .draining ∧
    (d.step r).drainReason = some (r.cancelDuring.getD (.timeout (r.finish - d.startedAt.getD 0)))

/-- When an overdue iteration begins no stage is ready, and some stream is still open or somebody
else cancels the flow at the same time. -/
def AtRest (d : FlowDriver) (r : Round) : Prop :=
  d.Overdue r → d.nextReady = none ∧
    (r.cancelDuring.isSome ∨
      (d.cancelBy r.cancelBefore).propagateProducerComplete.allStreamsComplete = false)

section Kept

variable {d : FlowDriver} {r : Round}

theorem executions_beginDrain (d : FlowDriver) (r : Round) :
    (d.beginDrain r).executions = d.executions := by
  obtain ⟨-, hevents, -⟩ := foldl_markSource (List.range d.topology.stages.length) d
  show (((List.range d.topology.stages.length).foldl markSource d).events ++ _).countP _ = _
  rw [hevents, List.countP_append]
  rfl

theorem executions_afterStage (d : FlowDriver) (r : Round) :
    d.executions ≤ (d.afterStage r).executions := by
  have hchecked : d.events <+:
      ((d.checkBackpressureAll r).1.notifyProducers (d.checkBackpressureAll r).2).events :=
    (List.prefix_append _ _).trans (List.prefix_append _ _)
  apply executions_le_of_prefix
  unfold afterStage yieldCheck
  simp only
  split
  · exact hchecked.trans (List.prefix_append _ _)
  · exact hchecked

/-- The reason a token ends up with when it is cancelled from outside and then by the driver. -/
theorem reason_cancelBy {c : FlowCancellation} (h : c.isCancelled = false)
    (other : Option CancellationReason) (reason : CancellationReason) :
    ((c.cancelBy other).cancelBy (some reason)).reason = some (other.getD reason) := by
  have hnone : c.reason = none := by simpa [FlowCancellation.isCancelled] using h
  cases other with
  | none => simp [FlowCancellation.cancelBy, FlowCancellation.cancel, hnone]
  | some first => simp [FlowCancellation.cancelBy, FlowCancellation.cancel, hnone]

/-- A stage that is ready is run, before or after the deadline. -/
theorem executions_lt_of_ready (hrun : d.state = .running)
    (hcancel : (d.cancelBy r.cancelBefore).cancellation.isCancelled = false) {e : StageExecution}
    (he : d.nextReady = some e) : d.executions < (d.step r).executions := by
  have hlt := executions_lt_executeStage (d.cancelBy r.cancelBefore) r e
  have hbefore : (d.cancelBy r.cancelBefore).executions = d.executions := rfl
  rcases step_running hrun r with ⟨hcancelled, -⟩ | ⟨e', c, -, he', hstep⟩ | ⟨c, hnone, -⟩
  · rw [hcancel] at hcancelled
    cases hcancelled
  · obtain rfl := Option.some.inj (he.symm.trans he')
    rcases hstep with hstep | hstep
    · rw [hstep, executions_beginDrain]
      exact hbefore ▸ hlt
    · rw [hstep]
      exact lt_of_lt_of_le (hbefore ▸ hlt) (executions_afterStage _ r)
  · rw [he] at hnone
    cases hnone

/-- Without a ready stage an iteration waits, and starts nothing. -/
theorem executions_of_idle (hrun : d.state = .running)
    (hcancel : (d.cancelBy r.cancelBefore).cancellation.isCancelled = false)
    (hnone : d.nextReady = none) : (d.step r).executions = d.executions := by
  have hidle : (d.cancelBy r.cancelBefore).propagateProducerComplete.executions = d.executions := by
    obtain ⟨-, hevents⟩ := foldl_propagateStage_frame
      (List.range (d.cancelBy r.cancelBefore).topology.stages.length) (d.cancelBy r.cancelBefore)
    exact congrArg (List.countP FlowEvent.isExecution) hevents
  rcases step_running hrun r with ⟨hcancelled, -⟩ | ⟨e, c, -, he, -⟩ | ⟨c, -, hstep⟩
  · rw [hcancel] at hcancelled
    cases hcancelled
  · rw [hnone] at he
    cases he
  · rcases hstep with hstep | hstep
    · rw [hstep, executions_beginDrain]
      exact hidle
    · rw [hstep]
      exact hidle

/-- Without a ready stage an iteration is idle. -/
theorem step_idle (hrun : d.state = .running)
    (hcancel : (d.cancelBy r.cancelBefore).cancellation.isCancelled = false)
    (hnone : d.nextReady = none) :
    d.step r = match (d.cancelBy r.cancelBefore).idle r with
      | (d, .next) => d
      | (d, .stop) => d.beginDrain r := by
  have hnext : (d.cancelBy r.cancelBefore).nextReady = none := hnone
  simp only [step, hrun, iterate, hcancel, hnext]
  rfl

/-- **How an overdue iteration without a ready stage ends.** -/
theorem step_overdue (hoverdue : d.Overdue r) (htimely : d.Timely r) (hnone : d.nextReady = none) :
    (d.step r).state = .draining ∧ (d.step r).drainReason = some (r.cancelDuring.getD
      (if (d.cancelBy r.cancelBefore).propagateProducerComplete.allStreamsComplete then
        .sourceComplete
      else .timeout (r.finish - d.startedAt.getD 0))) := by
  obtain ⟨hle, hwake⟩ := htimely hoverdue
  obtain ⟨hrun, hcancel, hpassed⟩ := hoverdue
  have hcontext := (d.cancelBy r.cancelBefore).propagateProducerComplete_frame.1
  rw [step_idle hrun hcancel hnone]
  unfold idle
  set d₀ := (d.cancelBy r.cancelBefore).propagateProducerComplete with hd₀
  have hcancelled : d₀.cancellation.isCancelled = false := by
    rw [← hcancel]
    exact congrArg (fun c : Context => c.cancellation.isCancelled) hcontext
  have hstarted : d₀.startedAt = d.startedAt := congrArg Context.startedAt hcontext
  have htimeouts : d₀.timeouts = d.timeouts := congrArg Context.timeouts hcontext
  have hpassed' : (d₀.cancelBy r.cancelDuring).deadlinePassed r.finish = true := by
    show d₀.timeouts.flowDeadline.any _ = true
    rw [htimeouts]
    simp only [deadlinePassed, Option.any_eq_true] at hpassed ⊢
    obtain ⟨deadline, hdeadline, hlt⟩ := hpassed
    refine ⟨deadline, hdeadline, ?_⟩
    show decide (deadline ≤ r.finish - d₀.startedAt.getD 0) = true
    rw [decide_eq_true_eq] at hlt ⊢
    rw [hstarted]
    omega
  have hstreams : (d₀.cancelBy r.cancelDuring).allStreamsComplete = d₀.allStreamsComplete := rfl
  dsimp only
  rw [hstreams]
  cases hcomplete : d₀.allStreamsComplete with
  | true => exact ⟨rfl, reason_cancelBy hcancelled _ _⟩
  | false =>
      rcases hwake with hwake | ⟨hwake, hduring⟩
      · simp only [hwake, hpassed', Bool.false_eq_true, if_true, if_false]
        refine ⟨rfl, ?_⟩
        rw [← hstarted]
        exact reason_cancelBy hcancelled _ _
      · obtain ⟨reason, hreason⟩ := Option.isSome_iff_exists.mp hduring
        have hsome : (d₀.cancelBy r.cancelDuring).cancellation.reason = some reason := by
          have hnone : d₀.cancellation.reason = none := by
            simpa [FlowCancellation.isCancelled] using hcancelled
          simp [cancelBy, hreason, FlowCancellation.cancelBy, FlowCancellation.cancel, hnone]
        have his : (d₀.cancelBy r.cancelDuring).cancellation.isCancelled = true := by
          rw [FlowCancellation.isCancelled, hsome]
          rfl
        simp only [hwake, his, Bool.false_eq_true, if_true, if_false]
        refine ⟨rfl, ?_⟩
        rw [hreason] at hsome ⊢
        exact hsome

/-- **An overdue iteration keeps the deadline exactly when it begins at rest.** -/
theorem deadlineKept_iff_atRest (htimely : d.Timely r) : d.DeadlineKept r ↔ d.AtRest r := by
  constructor
  · intro hkept hoverdue
    obtain ⟨hsame, -, hreason⟩ := hkept hoverdue
    have hnone : d.nextReady = none := by
      cases he : d.nextReady with
      | none => rfl
      | some e =>
          have hlt := executions_lt_of_ready hoverdue.1 hoverdue.2.1 he
          omega
    refine ⟨hnone, ?_⟩
    -- a flow whose streams are complete ends as completed
    by_contra hopen
    rw [not_or, Option.not_isSome_iff_eq_none, Bool.not_eq_false] at hopen
    rw [(step_overdue hoverdue htimely hnone).2, hopen.1, hopen.2] at hreason
    cases hreason
  · intro hrest hoverdue
    obtain ⟨hnone, hopen⟩ := hrest hoverdue
    obtain ⟨hstate, hreason⟩ := step_overdue hoverdue htimely hnone
    refine ⟨executions_of_idle hoverdue.1 hoverdue.2.1 hnone, hstate, ?_⟩
    rw [hreason]
    rcases hopen with hduring | hopen
    · obtain ⟨reason, hduring⟩ := Option.isSome_iff_exists.mp hduring
      rw [hduring]
      rfl
    · rw [hopen]
      rfl

end Kept

end FlowDriver

open FlowDriver

/-- **In which runs the deadline is kept**: in those in which every iteration that begins after
it begins at rest. -/
theorem deadline_kept_iff (f : BuiltFlow) (rounds : List Round)
    (htimely : Guarded step Timely f.start rounds) :
    Guarded step DeadlineKept f.start rounds ↔ Guarded step AtRest f.start rounds :=
  htimely.congr fun _ _ => deadlineKept_iff_atRest

/-- A source that feeds a sink and a router without outputs, with a deadline. -/
def limitedConfig : FlowConfig :=
  { smallConfig [.source, .router, .sink] [(0, 1), (0, 2)] 1 with
    timeouts := ⟨some 10, 5000000000, 5000000000⟩ }

def limitedFlow : BuiltFlow where
  flowId := ⟨0⟩
  config := limitedConfig
  streams := (spawnStreams ⟨0⟩ limitedConfig).get (by decide)
  startedAt := 0
  wallClock := 0
  built := (Option.some_get _).symm

/-- A round at the instant `now`, whose wait would end by the deadline. -/
def roundAt (now : ℕ) (invoker : Invoker) : Round :=
  ⟨invoker, now, now, now, none, none, .deadline⟩

/-- An element goes to the router, the source is done, and the deadline passes. -/
def restingRounds : List Round :=
  [roundAt 1 (forwarding 1), roundAt 2 ⟨fun _ => .ok none, fun _ _ => .timeout, fun _ _ => .timeout⟩,
    roundAt 10 (forwarding 1)]

theorem deadline_kept_iff_resting :
    (limitedFlow.run restingRounds).drainReason = some (.timeout 10) ∧
    (Guarded step DeadlineKept limitedFlow.start restingRounds ↔
      Guarded step AtRest limitedFlow.start restingRounds) := by
  refine ⟨by decide, deadline_kept_iff limitedFlow restingRounds ?_⟩
  exact ⟨fun _ => ⟨le_rfl, .inl rfl⟩, fun _ => ⟨le_rfl, .inl rfl⟩, fun _ => ⟨le_rfl, .inl rfl⟩, trivial⟩

/-- Twice the deadline after the start the source is still asked for elements. -/
theorem deadline_missed :
    Guarded step Timely limitedFlow.start [roundAt 20 (forwarding 1)] ∧
    ¬Guarded step DeadlineKept limitedFlow.start [roundAt 20 (forwarding 1)] := by
  refine ⟨⟨fun _ => ⟨le_rfl, .inl rfl⟩, trivial⟩, fun hkept => ?_⟩
  obtain ⟨hsame, -⟩ := hkept.1 ⟨rfl, rfl, by decide⟩
  exact absurd hsame (by decide)

end Torvyn.Reactor
