/-
# Fatal errors

A component that answers `ProcessError::Fatal` is "permanently unable to process further
elements", and "the runtime will not send more elements".  The driver does not remember such an
answer: its error policies treat every error alike, and the drain loop ignores results.  So a
component that has failed is asked again whenever the scheduler comes back to it.
`fatal_is_terminal` says when it cannot: nothing else was on its way to the component, and no
source that leads to it will be pulled again.
-/
import Torvyn.Data.GuardedRun
import Torvyn.Reactor.Drain
import Torvyn.Reactor.Record

namespace Torvyn.Reactor

/-! ## Asking a component to work -/

/-- The answer of a component that has failed for good. -/
def Answer.isFatal {α : Type} : Answer α → Bool
  | .error (.fatal _) => true
  | _ => false

/-- The component that is asked to work, and whether it fails for good. -/
def FlowEvent.work : FlowEvent → Option (ComponentId × Bool)
  | .invoked c (.pull answer) => some (c, answer.isFatal)
  | .invoked c (.process _ answer) => some (c, answer.isFatal)
  | .invoked c (.push _ answer) => some (c, answer.isFatal)
  | _ => none

/-- A component that has failed for good is not asked again. -/
def FatalIsTerminal (work : List (ComponentId × Bool)) : Prop :=
  work.Pairwise fun first later => first.2 = true → later.1 ≠ first.1

theorem FatalIsTerminal.concat {work : List (ComponentId × Bool)} (h : FatalIsTerminal work)
    {call : ComponentId × Bool} (hnew : (call.1, true) ∉ work) :
    FatalIsTerminal (work ++ [call]) := by
  unfold FatalIsTerminal
  rw [List.pairwise_append]
  refine ⟨h, List.pairwise_singleton _ _, fun first hfirst later hlater hfatal => ?_⟩
  rw [List.mem_singleton.mp hlater]
  intro heq
  apply hnew
  rw [heq, ← hfatal]
  exact hfirst

namespace FlowDriver

/-- The calls that ask a component to work, in order. -/
def work (d : FlowDriver) : List (ComponentId × Bool) := d.events.filterMap FlowEvent.work

/-- The call that the execution of a stage makes. -/
def call (d : FlowDriver) (r : Round) (e : StageExecution) : Option (ComponentId × Bool) :=
  match e.action with
  | .pullFromSource => some (e.componentId, (r.invoker.pull e.componentId).isFatal)
  | .processElement id => (d.inputElement id).map fun elem =>
      (e.componentId, (r.invoker.process e.componentId elem.toStreamElement).isFatal)
  | .pushToSink id => (d.inputElement id).map fun elem =>
      (e.componentId, (r.invoker.push e.componentId elem.toStreamElement).isFatal)

/-! ## The calls of one execution -/

theorem work_of_events {d d' : FlowDriver} {more : List FlowEvent}
    (h : d'.events = d.events ++ more) : d'.work = d.work ++ more.filterMap FlowEvent.work := by
  unfold work
  rw [h, List.filterMap_append]

/-- Events that ask nobody to work. -/
theorem work_of_idle {d d' : FlowDriver} {more : List FlowEvent}
    (h : d'.events = d.events ++ more) (hidle : ∀ ev ∈ more, ev.work = none) :
    d'.work = d.work := by
  rw [work_of_events h, List.filterMap_eq_nil_iff.mpr hidle, List.append_nil]

@[simp] theorem work_log (d : FlowDriver) (ev : FlowEvent) :
    (d.log ev).work = d.work ++ ev.work.toList := by
  rw [@work_of_events d (d.log ev) [ev] rfl]
  cases hwork : ev.work <;> simp [hwork]

@[simp] theorem work_pushPulled (d : FlowDriver) (r : Round) (element : OutputElement) (si : ℕ) :
    (d.pushPulled r element si).work = d.work := by
  cases hs : d.streams[si]? with
  | none =>
      apply @work_of_idle _ _ []
      · simp only [pushPulled, hs, List.append_nil]
      · simp
  | some s =>
      apply work_of_idle (congrArg events (pushPulled_eq r element hs))
      intro ev hev
      rcases List.mem_cons.mp hev with rfl | hev
      · rfl
      · split at hev
        · cases hev
        · rw [List.mem_singleton.mp hev]
          rfl

@[simp] theorem work_pushAll (input : StreamElementRef) (ts : List (OutputElement × ℕ))
    (d : FlowDriver) : (d.pushAll input ts).work = d.work := by
  induction ts generalizing d with
  | nil => rfl
  | cons t ts ih =>
      show ((d.pushOutput input t.1 t.2).pushAll input ts).work = d.work
      rw [ih]
      cases hs : d.streams[t.2]? with
      | none =>
          apply @work_of_idle _ _ []
          · simp only [pushOutput, hs, List.append_nil]
          · simp
      | some s =>
          apply work_of_idle (congrArg events (pushOutput_eq input t.1 hs))
          intro ev hev
          rw [List.mem_singleton.mp hev]
          rfl

theorem work_executeAction (d : FlowDriver) (r : Round) (e : StageExecution) :
    (d.executeAction r e).1.work = d.work ++ (d.call r e).toList := by
  obtain ⟨componentId, stageIdx, action⟩ := e
  cases action with
  | pullFromSource =>
      show (d.executePull r stageIdx componentId).1.work = _
      unfold executePull
      simp only [call]
      cases hanswer : r.invoker.pull componentId with
      | error | timeout => simp [Answer.toExcept, FlowEvent.work]
      | ok output =>
          cases output with
          | none =>
              have hmark : ∀ (d : FlowDriver) sis, (d.markComplete sis).work = d.work :=
                fun _ _ => rfl
              simp [Answer.toExcept, FlowEvent.work, hmark]
          | some element =>
              simp only [Answer.toExcept]
              split <;> simp [FlowEvent.work]
  | processElement id =>
      show (d.executeProcess r stageIdx componentId id).1.work = _
      unfold executeProcess
      simp only [call]
      rcases d.takeInput_cases id with ⟨htake, helem, -⟩ | ⟨si, s, elem, -, -, helem, -, htake⟩
      · simp [htake, helem]
      · simp only [htake, helem, Option.map_some]
        have htaken : ({ d with
          streams := d.streams.set si s.take.2
          currentElementSequence := some elem.originSequence } : FlowDriver).work = d.work := rfl
        cases hanswer : r.invoker.process componentId elem.toStreamElement with
        | error | timeout =>
            simp only [StreamElementRef.toStreamElement] at hanswer
            simp [hanswer, Answer.toExcept, FlowEvent.work, htaken]
        | ok result =>
            simp only [StreamElementRef.toStreamElement] at hanswer
            simp [hanswer, Answer.toExcept, FlowEvent.work, htaken]
  | pushToSink id =>
      show (d.executePush r componentId id).1.work = _
      unfold executePush
      simp only [call]
      rcases d.takeInput_cases id with ⟨htake, helem, -⟩ | ⟨si, s, elem, -, -, helem, -, htake⟩
      · simp [htake, helem]
      · simp only [htake, helem, Option.map_some]
        have htaken : ({ d with
          streams := d.streams.set si s.take.2
          currentElementSequence := some elem.originSequence } : FlowDriver).work = d.work := rfl
        cases hanswer : r.invoker.push componentId elem.toStreamElement with
        | error | timeout | ok =>
            simp only [StreamElementRef.toStreamElement] at hanswer
            simp [hanswer, Answer.toExcept, FlowEvent.work, htaken]

/-- **An execution makes the one call of its stage.** -/
theorem work_executeStage (d : FlowDriver) (r : Round) (e : StageExecution) :
    (d.executeStage r e).1.work = d.work ++ (d.call r e).toList := by
  have haction := ({ d with currentElementSequence := none } : FlowDriver).work_executeAction r e
  obtain ⟨startNs, endNs, status, hevents⟩ := events_recordExecution
    (({ d with currentElementSequence := none } : FlowDriver).executeAction r e).1 r e
    (({ d with currentElementSequence := none } : FlowDriver).executeAction r e).2
  refine (work_of_idle hevents fun ev hev => ?_).trans haction
  rcases List.mem_cons.mp hev with rfl | hev
  · rfl
  · obtain ⟨seq, -, rfl⟩ := List.mem_map.mp hev
    rfl

theorem Quiet.work_eq {d d' : FlowDriver} (h : Quiet d d') : d'.work = d.work := by
  obtain ⟨more, hevents, hmore⟩ := h.events
  refine work_of_idle hevents fun ev hev => ?_
  have hquiet := hmore ev hev
  cases ev with
  | invoked c call => cases call <;> first | rfl | cases hquiet
  | _ => rfl

theorem work_finish (d : FlowDriver) (r : Round) : (d.finish r).work = d.work := by
  obtain ⟨more, hevents, hmore, -⟩ := d.finish_events r
  refine work_of_idle hevents fun ev hev => ?_
  rcases hmore ev hev with ⟨s, -, -, rfl⟩ | ⟨oldState, newState, rfl⟩ | ⟨stats, rfl⟩
  · rfl
  · rfl
  · rfl

/-- A component that fails for good gives its stage an error, and no elements. -/
theorem error_of_fatal {d : FlowDriver} {r : Round} {e : StageExecution} {c : ComponentId}
    (h : d.call r e = some (c, true)) :
    c = e.componentId ∧ d.addressed r e = [] ∧ ∃ err, (d.executeStage r e).2 = .error err := by
  have hfatal : ∀ {α : Type} {answer : Answer α}, answer.isFatal = true →
      ∃ detail, answer = .error (.fatal detail) := by
    intro α answer hanswer
    unfold Answer.isFatal at hanswer
    split at hanswer
    · exact ⟨_, rfl⟩
    · cases hanswer
  obtain ⟨componentId, stageIdx, action⟩ := e
  cases action with
  | pullFromSource =>
      obtain ⟨rfl, hanswer⟩ := Prod.mk.inj (Option.some.inj h)
      obtain ⟨detail, hanswer⟩ := hfatal hanswer
      refine ⟨rfl, by simp [addressed, hanswer], ⟨.componentError componentId (.fatal detail), ?_⟩⟩
      show (executePull { d with currentElementSequence := none } r stageIdx componentId).2 = _
      simp only [executePull, hanswer, Answer.toExcept]
  | processElement id =>
      obtain ⟨elem, helem, hcall⟩ := Option.map_eq_some_iff.mp h
      obtain ⟨rfl, hanswer⟩ := Prod.mk.inj hcall
      obtain ⟨detail, hanswer⟩ := hfatal hanswer
      simp only [StreamElementRef.toStreamElement] at hanswer
      refine ⟨rfl, by simp [addressed, helem, hanswer], ⟨.componentError componentId (.fatal detail), ?_⟩⟩
      show (executeProcess { d with currentElementSequence := none } r stageIdx componentId id).2 = _
      rcases ({ d with currentElementSequence := none } : FlowDriver).takeInput_cases id with
        ⟨-, hnone, -⟩ | ⟨si, s, elem', -, -, helem', -, htake⟩
      · cases helem.symm.trans hnone
      · obtain rfl := Option.some.inj (helem.symm.trans helem')
        simp only [executeProcess, htake, hanswer, Answer.toExcept]
  | pushToSink id =>
      obtain ⟨elem, helem, hcall⟩ := Option.map_eq_some_iff.mp h
      obtain ⟨rfl, hanswer⟩ := Prod.mk.inj hcall
      obtain ⟨detail, hanswer⟩ := hfatal hanswer
      simp only [StreamElementRef.toStreamElement] at hanswer
      refine ⟨rfl, rfl, ⟨.componentError componentId (.fatal detail), ?_⟩⟩
      show (executePush { d with currentElementSequence := none } r componentId id).2 = _
      rcases ({ d with currentElementSequence := none } : FlowDriver).takeInput_cases id with
        ⟨-, hnone, -⟩ | ⟨si, s, elem', -, -, helem', -, htake⟩
      · cases helem.symm.trans hnone
      · obtain rfl := Option.some.inj (helem.symm.trans helem')
        simp only [executePush, htake, hanswer, Answer.toExcept]

/-! ## One round seen through the accessors -/

/-- Cancellation stops the main loop. -/
theorem step_of_cancelled {d : FlowDriver} (hrun : d.state = .running) {r : Round}
    (h : (d.cancelBy r.cancelBefore).cancellation.isCancelled = true) :
    d.step r = (d.cancelBy r.cancelBefore).beginDrain r := by
  simp only [step, hrun, iterate, if_pos h]

/-- After an error the main loop stops under `FailFast` and goes on under any other policy. -/
theorem runStage_of_error {d : FlowDriver} {r : Round} {e : StageExecution} {err : FlowError}
    (herr : (d.executeStage r e).2 = .error err) :
    (d.errorPolicy = .failFast → (d.runStage r e).2 = .stop) ∧
      (d.errorPolicy ≠ .failFast → d.runStage r e =
        (((d.executeStage r e).1.cancelBy r.cancelDuring).afterStage r, .next)) := by
  have hpolicy : ((d.executeStage r e).1.cancelBy r.cancelDuring).errorPolicy = d.errorPolicy :=
    congrArg Context.errorPolicy (context_executeStage d r e)
  constructor
  · intro hfail
    have hfail' := hpolicy.trans hfail
    simp only [runStage, herr, hfail']
  · intro hother
    unfold runStage
    simp only
    split
    · rename_i hfail
      exact absurd (hpolicy.symm.trans hfail) hother
    · rfl

/-- A stage that is chosen in the main loop is executed. -/
theorem iterate_of_chosen {d : FlowDriver} (hrun : d.state = .running) {r : Round}
    {e : StageExecution} (hchosen : d.chosen r = some e) :
    d.iterate r = (d.cancelBy r.cancelBefore).runStage r e := by
  simp only [chosen, hrun] at hchosen
  split at hchosen
  · cases hchosen
  · rename_i hcancel
    have hnext : (d.cancelBy r.cancelBefore).nextReady = some e := hchosen
    simp only [iterate, if_neg hcancel, hnext]

/-- The main loop goes on after a stage without an error. -/
theorem step_of_ok {d : FlowDriver} (hrun : d.state = .running) {r : Round} {e : StageExecution}
    (hchosen : d.chosen r = some e) (hok : ((d.cancelBy r.cancelBefore).executeStage r e).2 = .ok ()) :
    d.step r =
      (((d.cancelBy r.cancelBefore).executeStage r e).1.cancelBy r.cancelDuring).afterStage r := by
  have hiter : d.iterate r = ((((d.cancelBy r.cancelBefore).executeStage r e).1.cancelBy
      r.cancelDuring).afterStage r, .next) := by
    rw [iterate_of_chosen hrun hchosen]
    simp only [runStage, hok]
  simp only [step, hrun, hiter]

/-- A fatal answer in the main loop begins the drain under `FailFast`.  Under any other policy
the loop goes on, until it finds the flow cancelled. -/
theorem step_of_fatal {d : FlowDriver} (hrun : d.state = .running) {r : Round}
    {e : StageExecution} (hchosen : d.chosen r = some e) {c : ComponentId}
    (hcall : d.call r e = some (c, true)) :
    (d.errorPolicy = .failFast → (d.step r).state = .draining) ∧
      (r.cancelDuring.isSome = true → (d.step r).state = .draining ∨
        (d.step r).cancellation.isCancelled = true) := by
  have hiter := iterate_of_chosen hrun hchosen
  obtain ⟨-, -, err, herr⟩ := @error_of_fatal (d.cancelBy r.cancelBefore) r e c hcall
  obtain ⟨hstop, hgoes⟩ := runStage_of_error herr
  have hdrain : d.errorPolicy = .failFast → (d.step r).state = .draining := by
    intro hfail
    have hcontrol := hstop hfail
    rw [← hiter] at hcontrol
    unfold step
    rw [hrun]
    cases hresult : d.iterate r with
    | mk d' control =>
        rw [hresult] at hcontrol
        simp only at hcontrol
        rw [hcontrol]
        rfl
  refine ⟨hdrain, fun hsome => ?_⟩
  by_cases hfail : d.errorPolicy = .failFast
  · exact .inl (hdrain hfail)
  · right
    have hstep : d.step r = (((d.cancelBy r.cancelBefore).executeStage r e).1.cancelBy
        r.cancelDuring).afterStage r := by
      simp only [step, hrun, hiter, hgoes hfail]
    obtain ⟨-, hcontext, -⟩ := (((d.cancelBy r.cancelBefore).executeStage r e).1.cancelBy
      r.cancelDuring).afterStage_frame r
    have hcancellation := congrArg Context.cancellation hcontext
    obtain ⟨reason, hreason⟩ := Option.isSome_iff_exists.mp hsome
    rw [hreason] at hcancellation hstep
    rw [hstep]
    exact (congrArg FlowCancellation.isCancelled hcancellation).trans rfl

/-- **One round of a live driver.**  Completion is not taken back, and a stream loses the element
that is taken from it and gains the one that is addressed to it, if there is room. -/
theorem step_read {t : FlowTopology} {d : FlowDriver} (h : DriverInv t d) (r : Round)
    (hlive : (d.step r).state = .running ∨ (d.step r).state = .draining) {si : ℕ}
    (hlt : si < d.streams.length) :
    (completeAt d.streams si = true → completeAt (d.step r).streams si = true) ∧
      (d.chosen r = none → lenAt (d.step r).streams si = lenAt d.streams si) ∧
      ∀ e, d.chosen r = some e → lenAt (d.step r).streams si =
        if si ∈ d.addressed r e then
          min ((lenAt d.streams si - if d.takenFrom e = some si then 1 else 0) + 1)
            (capacityAt d.streams si)
        else lenAt d.streams si - if d.takenFrom e = some si then 1 else 0 := by
  have hnodup : ∀ v, (d.streamIndex.outputs v).Nodup := by
    intro v
    rw [h.streamIndex]
    exact StreamIndex.outputs_nodup
  rcases h.live with hrun | hdrain
  · rcases step_running hrun r with ⟨hcancel, hstep⟩ | ⟨e, c, hcancel, he, hstep⟩ | ⟨c, hnone, hstep⟩
    · have hchosen : d.chosen r = none := by simp only [chosen, hrun, if_pos hcancel]
      obtain ⟨-, -, -, -, hm⟩ := (d.cancelBy r.cancelBefore).beginDrain_frame r
      obtain ⟨-, -, hlen, hcomplete⟩ := hm.read hlt
      rw [hstep]
      refine ⟨fun hc => hcomplete.mpr (.inl hc), fun _ => hlen, fun e he => ?_⟩
      cases hchosen.symm.trans he
    · have hchosen : d.chosen r = some e := by
        simp only [chosen, hrun, hcancel, Bool.false_eq_true, if_false, he]
      have hex := (d.cancelBy r.cancelBefore).executeStage_executed r e (hnodup _)
      have hlt' : si < ((d.cancelBy r.cancelBefore).executeStage r e).1.streams.length := by
        rw [hex.applies.length_eq]
        exact hlt
      obtain ⟨-, -, hcomplete, hlen⟩ := hex.applies.read hlt
      have hdone : completeAt d.streams si = true →
          completeAt ((d.cancelBy r.cancelBefore).executeStage r e).1.streams si = true := by
        intro hc
        rw [hcomplete]
        exact Bool.or_eq_true_iff.mpr (.inl hc)
      rcases hstep with hstep | hstep
      · obtain ⟨-, -, -, -, hm⟩ :=
          (((d.cancelBy r.cancelBefore).executeStage r e).1.withCancellation c).beginDrain_frame r
        obtain ⟨-, -, hlen', hcomplete'⟩ := hm.read hlt'
        rw [hstep]
        refine ⟨fun hc => hcomplete'.mpr (.inl (hdone hc)), fun hnone => ?_, fun e' he' => ?_⟩
        · cases hchosen.symm.trans hnone
        · obtain rfl := Option.some.inj (hchosen.symm.trans he')
          exact hlen'.trans hlen
      · obtain ⟨hstreams, -, -⟩ :=
          (((d.cancelBy r.cancelBefore).executeStage r e).1.withCancellation c).afterStage_frame r
        have hread := read_checkAll
          ((d.cancelBy r.cancelBefore).executeStage r e).1.streams r.finish si
        rw [hstep, hstreams]
        refine ⟨fun hc => hread.2.2.1.trans (hdone hc), fun hnone => ?_, fun e' he' => ?_⟩
        · cases hchosen.symm.trans hnone
        · obtain rfl := Option.some.inj (hchosen.symm.trans he')
          exact hread.2.1.trans hlen
    · have hchosen : d.chosen r = none := by simp only [chosen, hrun, hnone, ite_self]
      obtain ⟨hlength, hread⟩ := foldl_propagateStage_read
        (List.range (d.cancelBy r.cancelBefore).topology.stages.length) (d.cancelBy r.cancelBefore)
      obtain ⟨hlen, -, hcomplete⟩ := hread si hlt
      rcases hstep with hstep | hstep
      · obtain ⟨-, -, -, -, hm⟩ := ((d.cancelBy
          r.cancelBefore).propagateProducerComplete.withCancellation c).beginDrain_frame r
        obtain ⟨-, -, hlen', hcomplete'⟩ := hm.read (hlength ▸ hlt)
        rw [hstep]
        refine ⟨fun hc => hcomplete'.mpr (.inl (hcomplete hc)), fun _ => hlen'.trans hlen,
          fun e he => ?_⟩
        cases hchosen.symm.trans he
      · rw [hstep]
        refine ⟨hcomplete, fun _ => hlen, fun e he => ?_⟩
        cases hchosen.symm.trans he
  · rcases step_draining hdrain r with ⟨e, hbefore, he, hstep⟩ | ⟨-, hstep⟩
    · have hchosen : d.chosen r = some e := by simp only [chosen, hdrain, if_pos hbefore, he]
      have hex := d.executeStage_executed r e (hnodup _)
      obtain ⟨-, -, hcomplete, hlen⟩ := hex.applies.read hlt
      rw [hstep]
      refine ⟨fun hc => ?_, fun hnone => ?_, fun e' he' => ?_⟩
      · rw [hcomplete]
        exact Bool.or_eq_true_iff.mpr (.inl hc)
      · cases hchosen.symm.trans hnone
      · obtain rfl := Option.some.inj (hchosen.symm.trans he')
        exact hlen
    · rw [hstep] at hlive
      exact absurd hlive (not_or.mpr (d.not_live_finish r))

end FlowDriver

/-! ## Nothing is on its way -/

/-- Elements can come from the stage to the component. -/
def LeadsTo (t : FlowTopology) (c : ComponentId) (w : ℕ) : Prop :=
  ∃ v stage, t.stages[v]? = some stage ∧ stage.componentId = c ∧ Reaches t w v

/-- No element is queued on the way to the component, except for one that has been taken. -/
def NoneWaiting (t : FlowTopology) (streams : List StreamState) (c : ComponentId)
    (taken : Option ℕ) : Prop :=
  ∀ si u v, Links t si u v → LeadsTo t c v →
    lenAt streams si ≤ if taken = some si then 1 else 0

/-- Every source that leads to the component is done. -/
def Exhausted (t : FlowTopology) (streams : List StreamState) (c : ComponentId) : Prop :=
  ∀ v, LeadsTo t c v → (StreamIndex.build t).inputs v = [] →
    ∀ o ∈ (StreamIndex.build t).outputs v, completeAt streams o = true

/-- If the component that the round asks fails for good, then no other element is on its way to
it, and no source that leads to it will be pulled again: the flow is draining, or it stops by
its policy or because it is cancelled, or these sources are all done. -/
def FatalEnds (t : FlowTopology) (d : FlowDriver) (r : Round) : Prop :=
  ∀ e, d.chosen r = some e → d.call r e = some (e.componentId, true) →
    NoneWaiting t d.streams e.componentId (d.takenFrom e) ∧
      (d.state = .draining ∨ d.errorPolicy = .failFast ∨ r.cancelDuring.isSome = true ∨
        Exhausted t d.streams e.componentId)

/-- Nothing comes to the component any more. -/
structure Quarantined (t : FlowTopology) (d : FlowDriver) (c : ComponentId) : Prop where
  waiting : NoneWaiting t d.streams c none
  stopped : d.state = .running →
    d.cancellation.isCancelled = true ∨ Exhausted t d.streams c

section Quarantine

variable {t : FlowTopology} {d : FlowDriver} {c : ComponentId}

/-- The main loop does not run once the flow is cancelled. -/
theorem not_cancelled_of_chosen {r : Round} {e : StageExecution} (hrun : d.state = .running)
    (h : d.chosen r = some e) : d.cancellation.isCancelled = false := by
  rw [← Bool.not_eq_true]
  intro hcancel
  have hbefore : (d.cancelBy r.cancelBefore).cancellation.isCancelled = true := by
    show (d.cancellation.cancelBy r.cancelBefore).isCancelled = true
    cases r.cancelBefore with
    | none => exact hcancel
    | some reason => rfl
  simp only [FlowDriver.chosen, hrun, if_pos hbefore] at h
  cases h

/-- **A stage that leads to a quarantined component does not run.** -/
theorem Quarantined.not_leadsTo (ht : t.Valid) (h : DriverInv t d) (hq : Quarantined t d c)
    {r : Round} {e : StageExecution} (hchosen : d.chosen r = some e) :
    ¬ LeadsTo t c e.stageIndex := by
  intro hleads
  obtain ⟨hlive, hready⟩ := FlowDriver.ready_of_chosen hchosen
  obtain ⟨stage, hstage, -, hx, -⟩ :=
    FlowDriver.nextReady_spec ht h.topology h.streamIndex h.streams.wired hready r
  rcases hx.taken with ⟨hrole, -, -⟩ | ⟨-, -, i, hi, hpos, -⟩
  · have hnil := (ht.inputs_eq_nil_iff hstage).mpr hrole
    have hun := hx.unblocked
    rw [hrole] at hun
    obtain ⟨o, ho, hcan⟩ := hun
    have hopen := ((canProduceAt_iff h.streams.credit (h.streams.wired.lt_of_mem_outputs ho)).mp
      hcan).1
    have hdone : completeAt d.streams o = true := by
      rcases hlive with hrun | hdrain
      · rcases hq.stopped hrun with hcancel | hexhausted
        · rw [not_cancelled_of_chosen hrun hchosen] at hcancel
          cases hcancel
        · exact hexhausted _ hleads hnil o ho
      · exact h.sources hdrain _ hnil o ho
    rw [hopen] at hdone
    cases hdone
  · obtain ⟨u, hlink⟩ := links_of_mem_inputs hi
    have hnone := hq.waiting i u _ hlink hleads
    rw [if_neg (Option.some_ne_none i ∘ Eq.symm)] at hnone
    omega

/-- The streams on the way to a component are not addressed by stages that do not lead to it. -/
theorem not_addressed (ht : t.Valid) (h : DriverInv t d) {r : Round} {e : StageExecution}
    (hready : d.nextReady = some e) (hnot : ¬ LeadsTo t c e.stageIndex) {si u v : ℕ}
    (hlink : Links t si u v) (hleads : LeadsTo t c v) : si ∉ d.addressed r e := by
  intro hmem
  obtain ⟨stage, hstage, -, hx, -⟩ :=
    FlowDriver.nextReady_spec ht h.topology h.streamIndex h.streams.wired hready r
  have hout : si ∈ (StreamIndex.build t).outputs e.stageIndex := hx.pushed.subset hmem
  obtain rfl := StreamIndex.outputs_inj hout hlink.mem_outputs
  obtain ⟨w, stage', hw, hc, hreach⟩ := hleads
  exact hnot ⟨w, stage', hw, hc, hreach.head ⟨si, hlink⟩⟩

theorem lt_of_links (h : DriverInv t d) {si u v : ℕ} (hlink : Links t si u v) :
    si < d.streams.length := h.streams.wired.lt_of_mem_outputs hlink.mem_outputs

theorem Exhausted.step (h : DriverInv t d) (hexhausted : Exhausted t d.streams c) (r : Round)
    (hlive : (d.step r).state = .running ∨ (d.step r).state = .draining) :
    Exhausted t (d.step r).streams c := by
  intro v hleads hnil o ho
  exact (FlowDriver.step_read h r hlive (h.streams.wired.lt_of_mem_outputs ho)).1
    (hexhausted v hleads hnil o ho)

/-- A quarantine lasts. -/
theorem Quarantined.step (ht : t.Valid) (h : DriverInv t d) (hq : Quarantined t d c) (r : Round)
    (hlive : (d.step r).state = .running ∨ (d.step r).state = .draining) :
    Quarantined t (d.step r) c := by
  constructor
  · intro si u v hlink hleads
    have hnone := hq.waiting si u v hlink hleads
    obtain ⟨-, hquiet, hasked⟩ := FlowDriver.step_read h r hlive (lt_of_links h hlink)
    cases hchosen : d.chosen r with
    | none =>
        rw [hquiet hchosen]
        exact hnone
    | some e =>
        obtain ⟨-, hready⟩ := FlowDriver.ready_of_chosen hchosen
        have hnot := not_addressed ht h hready (hq.not_leadsTo ht h hchosen) hlink hleads (r := r)
        rw [hasked e hchosen, if_neg hnot]
        exact (Nat.sub_le _ _).trans hnone
  · intro hrun'
    right
    have hrun : d.state = .running := by
      rcases h.live with hrun | hdrain
      · exact hrun
      · rcases FlowDriver.step_draining hdrain r with ⟨e, -, -, hstep⟩ | ⟨-, hstep⟩
        · have hcontext := d.context_executeStage r e
          have hstate : (d.executeStage r e).1.state = d.state :=
            congrArg FlowDriver.Context.state hcontext
          rw [hstep, hstate, hdrain] at hrun'
          cases hrun'
        · rw [hstep] at hrun'
          exact absurd hrun' (d.not_live_finish r).1
    refine Exhausted.step h ?_ r hlive
    refine (hq.stopped hrun).resolve_left fun hcancel => ?_
    have hbefore : (d.cancelBy r.cancelBefore).cancellation.isCancelled = true := by
      show (d.cancellation.cancelBy r.cancelBefore).isCancelled = true
      cases r.cancelBefore with
      | none => exact hcancel
      | some reason => rfl
    rw [FlowDriver.step_of_cancelled hrun hbefore] at hrun'
    cases hrun'

/-- **A fatal answer after which nothing comes puts the component under quarantine.** -/
theorem quarantined_of_fatal (h : DriverInv t d) {r : Round} (hend : FatalEnds t d r)
    {e : StageExecution} (hchosen : d.chosen r = some e)
    (hcall : d.call r e = some (c, true))
    (hlive : (d.step r).state = .running ∨ (d.step r).state = .draining) :
    Quarantined t (d.step r) c := by
  obtain ⟨rfl, haddressed, -⟩ := FlowDriver.error_of_fatal hcall
  obtain ⟨hnone, hstops⟩ := hend e hchosen hcall
  constructor
  · intro si u v hlink hleads
    have hnot : si ∉ d.addressed r e := by
      rw [haddressed]
      exact List.not_mem_nil
    rw [(FlowDriver.step_read h r hlive (lt_of_links h hlink)).2.2 e hchosen, if_neg hnot]
    have hle := hnone si u v hlink hleads
    omega
  · intro hrun'
    rcases h.live with hrun | hdrain
    · obtain ⟨hfail, hcancelled⟩ := FlowDriver.step_of_fatal hrun hchosen hcall
      rcases hstops with hdrain | hpolicy | hduring | hexhausted
      · cases hrun.symm.trans hdrain
      · cases hrun'.symm.trans (hfail hpolicy)
      · rcases hcancelled hduring with hdrain | hcancel
        · cases hrun'.symm.trans hdrain
        · exact .inl hcancel
      · exact .inr (hexhausted.step h r hlive)
    · rcases FlowDriver.step_draining hdrain r with ⟨e', -, -, hstep⟩ | ⟨-, hstep⟩
      · have hstate : (d.executeStage r e').1.state = d.state :=
          congrArg FlowDriver.Context.state (d.context_executeStage r e')
        rw [hstep, hstate, hdrain] at hrun'
        cases hrun'
      · rw [hstep] at hrun'
        exact absurd hrun' (d.not_live_finish r).1

end Quarantine

/-! ## Runs -/

/-- **A round makes the call of the stage that it executes, and no other.** -/
theorem FlowDriver.work_step (d : FlowDriver) (r : Round) :
    (d.step r).work = d.work ++ ((d.chosen r).bind (d.call r)).toList := by
  by_cases hrun : d.state = .running
  · rcases step_running hrun r with ⟨hcancel, hstep⟩ | ⟨e, c, hcancel, he, hstep⟩ | ⟨c, hnone, hstep⟩
    · have hchosen : d.chosen r = none := by simp only [chosen, hrun, if_pos hcancel]
      rw [hstep, hchosen, (quiet_beginDrain _ r).work_eq]
      exact (List.append_nil _).symm
    · have hchosen : d.chosen r = some e := by
        simp only [chosen, hrun, hcancel, Bool.false_eq_true, if_false, he]
      have hexecuted := (d.cancelBy r.cancelBefore).work_executeStage r e
      rw [hchosen]
      rcases hstep with hstep | hstep
      · rw [hstep, (quiet_beginDrain _ r).work_eq]
        exact hexecuted
      · rw [hstep, (quiet_afterStage _ r).work_eq]
        exact hexecuted
    · have hchosen : d.chosen r = none := by simp only [chosen, hrun, hnone, ite_self]
      have hpropagated := (quiet_propagateProducerComplete (d.cancelBy r.cancelBefore)).work_eq
      rw [hchosen]
      refine Eq.trans ?_ (List.append_nil _).symm
      rcases hstep with hstep | hstep
      · rw [hstep, (quiet_beginDrain _ r).work_eq]
        exact hpropagated
      · rw [hstep]
        exact hpropagated
  · by_cases hdrain : d.state = .draining
    · rcases step_draining hdrain r with ⟨e, hlt, he, hstep⟩ | ⟨hnone, hstep⟩
      · have hchosen : d.chosen r = some e := by simp only [chosen, hdrain, if_pos hlt, he]
        rw [hstep, hchosen]
        exact d.work_executeStage r e
      · have hchosen : d.chosen r = none := by
          simp only [chosen, hdrain]
          split
          · exact hnone ‹_›
          · rfl
        rw [hstep, hchosen, work_finish]
        exact (List.append_nil _).symm
    · have hchosen : d.chosen r = none := by
        unfold chosen
        split
        · exact absurd ‹_› hrun
        · exact absurd ‹_› hdrain
        · rfl
      rw [step_of_not_live hrun hdrain, hchosen]
      exact (List.append_nil _).symm

/-- What holds throughout a run of which every round meets the condition. -/
structure FatalInv (t : FlowTopology) (d : FlowDriver) : Prop where
  inv : d.state = .running ∨ d.state = .draining → DriverInv t d
  terminal : FatalIsTerminal d.work
  quarantined : d.state = .running ∨ d.state = .draining →
    ∀ c, (c, true) ∈ d.work → Quarantined t d c

theorem FatalInv.step {t : FlowTopology} {d : FlowDriver} (ht : t.Valid) (h : FatalInv t d)
    (r : Round) (hend : FatalEnds t d r) : FatalInv t (d.step r) := by
  by_cases hlive : d.state = .running ∨ d.state = .draining
  · have hinv := h.inv hlive
    refine ⟨hinv.step ht r, ?_, fun hlive' c hmem => ?_⟩
    · rw [FlowDriver.work_step]
      cases hchosen : d.chosen r with
      | none => exact (List.append_nil d.work).symm ▸ h.terminal
      | some e =>
          cases hcall : d.call r e with
          | none =>
              rw [Option.bind_some, hcall]
              exact (List.append_nil d.work).symm ▸ h.terminal
          | some call =>
              rw [Option.bind_some, hcall]
              apply h.terminal.concat
              intro hfailed
              have hsame : call.1 = e.componentId := by
                unfold FlowDriver.call at hcall
                split at hcall
                · rw [← Option.some.inj hcall]
                · obtain ⟨elem, -, rfl⟩ := Option.map_eq_some_iff.mp hcall
                  rfl
                · obtain ⟨elem, -, rfl⟩ := Option.map_eq_some_iff.mp hcall
                  rfl
              obtain ⟨-, hready⟩ := FlowDriver.ready_of_chosen hchosen
              obtain ⟨stage, hstage, hid, -⟩ := FlowDriver.nextReady_spec ht hinv.topology
                hinv.streamIndex hinv.streams.wired hready r
              exact (h.quarantined hlive _ hfailed).not_leadsTo ht hinv hchosen
                ⟨e.stageIndex, stage, hstage, hid.symm.trans hsame.symm, .refl⟩
    · rw [FlowDriver.work_step, List.mem_append] at hmem
      rcases hmem with hold | hnew
      · exact (h.quarantined hlive c hold).step ht hinv r hlive'
      · rw [Option.mem_toList, Option.bind_eq_some_iff] at hnew
        obtain ⟨e, hchosen, hcall⟩ := hnew
        exact quarantined_of_fatal hinv hend hchosen hcall hlive'
  · have hdead := not_or.mp hlive
    rw [FlowDriver.step_of_not_live hdead.1 hdead.2]
    exact h

/-- **Fatal is terminal for the component** in the runs in which every fatal answer comes when
nothing else is on its way to the component. -/
theorem fatal_is_terminal (f : SpawnedFlow) (rounds : List Round)
    (h : Guarded FlowDriver.step (FatalEnds f.config.topology) f.start rounds) :
    FatalIsTerminal (f.run rounds).work := by
  have hstart : FatalInv f.config.topology f.start := by
    refine ⟨fun _ => f.inv_start, List.Pairwise.nil, fun _ c hmem => ?_⟩
    cases hmem
  have hrun : FatalInv f.config.topology (f.run rounds) :=
    h.invariant (fun d r hend hd => hd.step f.valid r hend) hstart
  exact hrun.terminal

/-! ## Small flows -/

/-- Components of which the sinks fail for good. -/
def failingSink : Invoker := { forwarding 2 with push := fun _ _ => .error (.fatal "broken") }

/-- A source, a processor that feeds a sink through two streams, and that sink. -/
def twoStreamFlow : BuiltFlow where
  flowId := ⟨0⟩
  config := smallConfig [.source, .processor, .sink] [(0, 1), (1, 2), (1, 2)] 2
  streams := (spawnStreams ⟨0⟩
    (smallConfig [.source, .processor, .sink] [(0, 1), (1, 2), (1, 2)] 2)).get (by decide)
  startedAt := 0
  wallClock := 0
  built := (Option.some_get _).symm

/-- A source and a sink whose errors are skipped. -/
def skippingConfig : FlowConfig :=
  { smallConfig [.source, .sink] [(0, 1)] 2 with errorPolicy := .skipElement }

def skippingFlow : BuiltFlow where
  flowId := ⟨0⟩
  config := skippingConfig
  streams := (spawnStreams ⟨0⟩ skippingConfig).get (by decide)
  startedAt := 0
  wallClock := 0
  built := (Option.some_get _).symm

/-- A source and a sink. -/
def failFastFlow : SpawnedFlow where
  flowId := ⟨0⟩
  config := smallConfig [.source, .sink] [(0, 1)] 2
  streams := (spawnStreams ⟨0⟩ (smallConfig [.source, .sink] [(0, 1)] 2)).get (by decide)
  startedAt := 0
  wallClock := 0
  built := (Option.some_get _).symm
  validated := by decide

/-- The sink of the small flow fails on the only element, and the flow ends. -/
theorem fatal_is_terminal_failFast :
    (failFastFlow.run (List.replicate 3 (quietRound failingSink))).work = [(⟨0⟩, false), (⟨1⟩, true)] ∧
      FatalIsTerminal (failFastFlow.run (List.replicate 3 (quietRound failingSink))).work := by
  refine ⟨by decide, fatal_is_terminal failFastFlow _ ⟨?_, ?_, ?_, trivial⟩⟩
  · intro e hchosen hcall
    have hpull : failFastFlow.start.chosen (quietRound failingSink) =
        some ⟨⟨0⟩, 0, .pullFromSource⟩ := by decide
    obtain rfl := Option.some.inj (hchosen.symm.trans hpull)
    cases hcall
  · intro e hchosen hcall
    have hpush : (failFastFlow.start.step (quietRound failingSink)).chosen (quietRound failingSink) =
        some ⟨⟨1⟩, 1, .pushToSink ⟨0⟩⟩ := by decide
    obtain rfl := Option.some.inj (hchosen.symm.trans hpush)
    refine ⟨fun si u v hlink _ => ?_, .inr (.inl rfl)⟩
    obtain ⟨c, hc, -, -⟩ := hlink
    have hlt := (List.getElem?_eq_some_iff.mp hc).1
    obtain rfl : si = 0 := Nat.lt_one_iff.mp hlt
    decide
  · intro e hchosen
    have hnone : ((failFastFlow.start.step (quietRound failingSink)).step (quietRound failingSink)).chosen
        (quietRound failingSink) = none := by decide
    cases hchosen.symm.trans hnone

/-- A sink that has failed for good is handed another element: in the drain phase under
`FailFast`, and in the main loop under `SkipElement`. -/
theorem fatal_asked_again :
    twoStreamFlow.config.topology.validate = .ok () ∧ skippingFlow.config.topology.validate = .ok () ∧
      (twoStreamFlow.run (List.replicate 4 (quietRound failingSink))).work =
        [(⟨0⟩, false), (⟨1⟩, false), (⟨2⟩, true), (⟨2⟩, true)] ∧
      (skippingFlow.run (List.replicate 4 (quietRound failingSink))).work =
        [(⟨0⟩, false), (⟨1⟩, true), (⟨0⟩, false), (⟨1⟩, true)] ∧
      ¬ FatalIsTerminal (twoStreamFlow.run (List.replicate 4 (quietRound failingSink))).work ∧
      ¬ FatalIsTerminal (skippingFlow.run (List.replicate 4 (quietRound failingSink))).work := by
  have hdoubled : (twoStreamFlow.run (List.replicate 4 (quietRound failingSink))).work =
      [(⟨0⟩, false), (⟨1⟩, false), (⟨2⟩, true), (⟨2⟩, true)] := by decide
  have hskipping : (skippingFlow.run (List.replicate 4 (quietRound failingSink))).work =
      [(⟨0⟩, false), (⟨1⟩, true), (⟨0⟩, false), (⟨1⟩, true)] := by decide
  refine ⟨by decide, by decide, hdoubled, hskipping, ?_, ?_⟩
  · rw [hdoubled]
    unfold FatalIsTerminal
    decide
  · rw [hskipping]
    unfold FatalIsTerminal
    decide

end Torvyn.Reactor
