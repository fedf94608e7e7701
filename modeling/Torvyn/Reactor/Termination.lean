/-
# How a run ends

A flow can be cancelled from outside and by its own driver, at any time and more than once.
The token keeps the first reason, the drain phase reads it when it begins, and the terminal
state is chosen by it.  `Lifecycle` says what every state of a driver satisfies: its changes of
state are legal, and once it drains, token and drain phase have the same reason.
-/
import Torvyn.Reactor.Record

namespace Torvyn.Reactor

/-! ## The token -/

namespace FlowCancellation

/-- Several calls of `cancel`, one after another. -/
def cancelAll (c : FlowCancellation) (reasons : List CancellationReason) : FlowCancellation :=
  reasons.foldl cancel c

theorem cancelAll_append (c : FlowCancellation) (reasons more : List CancellationReason) :
    c.cancelAll (reasons ++ more) = (c.cancelAll reasons).cancelAll more := List.foldl_append

/-- **The first reason wins.** -/
theorem reason_cancelAll (c : FlowCancellation) (reasons : List CancellationReason) :
    (c.cancelAll reasons).reason = c.reason.or reasons.head? := by
  induction reasons generalizing c with
  | nil => exact (Option.or_none).symm
  | cons reason reasons ih =>
      show ((c.cancel reason).cancelAll reasons).reason = _
      rw [ih]
      cases hc : c.reason <;> simp [cancel, hc]

theorem cancelBy_eq (c : FlowCancellation) (reason : Option CancellationReason) :
    c.cancelBy reason = c.cancelAll reason.toList := by
  cases reason <;> rfl

end FlowCancellation

/-! ## Terminal states -/

/-- What a terminal state says about the reason a flow ended for. -/
structure AgreesWith (state : FlowState) (reason : CancellationReason) : Prop where
  completed : state = .completed ↔ reason = .sourceComplete
  cancelled : state = .cancelled ↔ reason = .operatorRequest
  failed : state = .failed ↔ reason ≠ .sourceComplete ∧ reason ≠ .operatorRequest

theorem agreesWith_terminalState (reason : CancellationReason) :
    AgreesWith (terminalState (some reason)) reason := by
  cases reason <;> exact ⟨by simp [terminalState], by simp [terminalState], by simp [terminalState]⟩

/-! ## Changes of state -/

/-- The change of state that an event reports. -/
def FlowEvent.stateChange? : FlowEvent → Option (FlowState × FlowState)
  | .flowStateChanged oldState newState => some (oldState, newState)
  | _ => none

/-- The changes of state that a driver has reported. -/
def transitions (events : List FlowEvent) : List (FlowState × FlowState) :=
  events.filterMap FlowEvent.stateChange?

/-- Legal changes, each from the state that the one before has led to. -/
def Follows : FlowState → List (FlowState × FlowState) → FlowState → Prop
  | s, [], s' => s = s'
  | s, (oldState, newState) :: changes, s' =>
      oldState = s ∧ oldState.canTransitionTo newState = true ∧ Follows newState changes s'

/-- One more legal change. -/
theorem Follows.snoc {s s' : FlowState} {changes : List (FlowState × FlowState)}
    (h : Follows s changes s') {newState : FlowState} (hlegal : s'.canTransitionTo newState = true) :
    Follows s (changes ++ [(s', newState)]) newState := by
  induction changes generalizing s with
  | nil =>
      obtain rfl : s = s' := h
      exact ⟨rfl, hlegal, rfl⟩
  | cons change changes ih =>
      obtain ⟨hold, hchange, hrest⟩ := h
      exact ⟨hold, hchange, ih hrest⟩

@[simp] theorem transitions_append (events more : List FlowEvent) :
    transitions (events ++ more) = transitions events ++ transitions more := List.filterMap_append

namespace FlowDriver

/-! ## One round -/

/-- The calls of `cancel` in one iteration of the main loop, in their order: from outside, and
by the driver itself after a failure, at the end of its streams or at the deadline. -/
def loopCalls (d : FlowDriver) (r : Round) : List CancellationReason :=
  let d₁ := d.cancelBy r.cancelBefore
  r.cancelBefore.toList ++
    if d₁.cancellation.isCancelled then []
    else r.cancelDuring.toList ++
      match d₁.nextReady with
      | some e =>
          match (d₁.executeStage r e).2, d.errorPolicy with
          | .error err, .failFast => [cancellationReason err]
          | _, _ => []
      | none =>
          let d₂ := d₁.propagateProducerComplete.cancelBy r.cancelDuring
          if d₂.allStreamsComplete then [.sourceComplete]
          else
            match r.wake with
            | .deadline =>
                if d₂.deadlinePassed r.finish then [.timeout (r.finish - d₂.startedAt.getD 0)]
                else []
            | _ => []

/-- The calls of `cancel` in one round. -/
def cancelCalls (d : FlowDriver) (r : Round) : List CancellationReason :=
  match d.state with
  | .running => d.loopCalls r
  | _ => []

/-- What an iteration of the main loop does to the token and to the report of the states. -/
structure Looped (d : FlowDriver) (calls : List CancellationReason) (d' : FlowDriver)
    (control : LoopControl) : Prop where
  cancellation : d'.cancellation = d.cancellation.cancelAll calls
  state : d'.state = d.state
  transitions_eq : Reactor.transitions d'.events = Reactor.transitions d.events
  cancelled : control = .stop → d'.cancellation.isCancelled = true

/-- Events of an execution report no change of state. -/
theorem StageLogged.transitions_eq {d d' : FlowDriver} (h : StageLogged d d') :
    Reactor.transitions d'.events = Reactor.transitions d.events := by
  obtain ⟨more, hevents, hmore⟩ := h
  have hnone : Reactor.transitions more = [] := by
    refine List.filterMap_eq_nil_iff.mpr fun ev hev => ?_
    have hstage := hmore ev hev
    cases ev <;> first | rfl | cases hstage
  rw [hevents, transitions_append, hnone, List.append_nil]

theorem transitions_afterStage (d : FlowDriver) (r : Round) :
    Reactor.transitions (d.afterStage r).events = Reactor.transitions d.events := by
  obtain ⟨more, hevents, hmore⟩ := d.afterStage_events r
  have hnone : Reactor.transitions more = [] := by
    refine List.filterMap_eq_nil_iff.mpr fun ev hev => ?_
    have hcheck := hmore ev hev
    cases ev <;> first | rfl | cases hcheck
  rw [hevents, transitions_append, hnone, List.append_nil]

/-- Running a stage. -/
theorem runStage_looped (d : FlowDriver) (r : Round) (e : StageExecution) :
    Looped d
      (r.cancelDuring.toList ++
        match (d.executeStage r e).2, d.errorPolicy with
        | .error err, .failFast => [cancellationReason err]
        | _, _ => [])
      (d.runStage r e).1 (d.runStage r e).2 := by
  have hcontext := d.context_executeStage r e
  have hlogged := (d.stageLogged_executeStage r e).transitions_eq
  have hcancellation : (d.executeStage r e).1.cancellation = d.cancellation :=
    congrArg Context.cancellation hcontext
  have hpolicy : (d.executeStage r e).1.errorPolicy = d.errorPolicy :=
    congrArg Context.errorPolicy hcontext
  have hduring : ((d.executeStage r e).1.cancelBy r.cancelDuring).cancellation =
      d.cancellation.cancelAll r.cancelDuring.toList := by
    rw [← FlowCancellation.cancelBy_eq, ← hcancellation]
    rfl
  have hgoes : Looped d (r.cancelDuring.toList ++ [])
      (((d.executeStage r e).1.cancelBy r.cancelDuring).afterStage r) .next := by
    obtain ⟨-, hafter, -⟩ := ((d.executeStage r e).1.cancelBy r.cancelDuring).afterStage_frame r
    refine ⟨?_, ?_, ?_, fun h => by cases h⟩
    · rw [List.append_nil, ← hduring]
      exact congrArg Context.cancellation hafter
    · exact (congrArg Context.state hafter).trans (congrArg Context.state hcontext)
    · rw [transitions_afterStage]
      exact hlogged
  unfold runStage
  have hpolicy' : ((d.executeStage r e).1.cancelBy r.cancelDuring).errorPolicy = d.errorPolicy :=
    hpolicy
  simp only [hpolicy']
  cases hresult : (d.executeStage r e).2 with
  | ok =>
      exact hgoes
  | error err =>
      cases d.errorPolicy with
      | failFast =>
          refine ⟨?_, congrArg Context.state hcontext, hlogged, fun _ => rfl⟩
          rw [FlowCancellation.cancelAll_append, ← hduring]
          rfl
      | retry | skipElement | logAndContinue => exact hgoes

/-- An idle iteration. -/
theorem idle_looped (d : FlowDriver) (r : Round) :
    let d₂ := d.propagateProducerComplete.cancelBy r.cancelDuring
    Looped d
      (r.cancelDuring.toList ++
        if d₂.allStreamsComplete then [.sourceComplete]
        else
          match r.wake with
          | .deadline =>
              if d₂.deadlinePassed r.finish then [.timeout (r.finish - d₂.startedAt.getD 0)]
              else []
          | _ => [])
      (d.idle r).1 (d.idle r).2 := by
  intro d₂
  obtain ⟨hcontext, hevents⟩ := foldl_propagateStage_frame (List.range d.topology.stages.length) d
  have hduring : d₂.cancellation = d.cancellation.cancelAll r.cancelDuring.toList := by
    have hcancellation : d.propagateProducerComplete.cancellation = d.cancellation :=
      congrArg Context.cancellation hcontext
    rw [← FlowCancellation.cancelBy_eq, ← hcancellation]
    rfl
  have hstate : d₂.state = d.state := congrArg Context.state hcontext
  have htransitions : Reactor.transitions d₂.events = Reactor.transitions d.events :=
    congrArg Reactor.transitions hevents
  -- the driver goes on, or stops with a reason of its own
  have hgoes : ∀ control, (control = .stop → d₂.cancellation.isCancelled = true) →
      Looped d (r.cancelDuring.toList ++ []) d₂ control :=
    fun control hstop => ⟨by rw [List.append_nil, hduring], hstate, htransitions, hstop⟩
  have hstops : ∀ reason, Looped d (r.cancelDuring.toList ++ [reason])
      (d₂.cancelBy (some reason)) .stop := by
    intro reason
    refine ⟨?_, hstate, htransitions, fun _ => rfl⟩
    rw [FlowCancellation.cancelAll_append, ← hduring]
    rfl
  by_cases hcomplete : d₂.allStreamsComplete = true
  · have hidle : d.idle r = (d₂.cancelBy (some .sourceComplete), .stop) := if_pos hcomplete
    rw [if_pos hcomplete, hidle]
    exact hstops _
  · rw [if_neg hcomplete]
    cases hwake : r.wake with
    | cancelled =>
        have hidle : d.idle r = (d₂, if d₂.cancellation.isCancelled then .stop else .next) := by
          refine (if_neg hcomplete).trans ?_
          rw [hwake]
        rw [hidle]
        refine hgoes _ fun hstop => ?_
        by_contra hne
        rw [if_neg hne] at hstop
        cases hstop
    | deadline =>
        have hidle : d.idle r =
            if d₂.deadlinePassed r.finish then
              (d₂.cancelBy (some (.timeout (r.finish - d₂.startedAt.getD 0))), .stop)
            else (d₂, .next) := by
          refine (if_neg hcomplete).trans ?_
          rw [hwake]
        rw [hidle]
        simp only
        by_cases hpassed : d₂.deadlinePassed r.finish = true
        · rw [if_pos hpassed, if_pos hpassed]
          exact hstops _
        · rw [if_neg hpassed, if_neg hpassed]
          exact hgoes .next fun hstop => by cases hstop
    | tick =>
        have hidle : d.idle r = (d₂, .next) := by
          refine (if_neg hcomplete).trans ?_
          rw [hwake]
        rw [hidle]
        exact hgoes .next fun hstop => by cases hstop

/-- **One iteration of the main loop**: it stops only when the flow is cancelled. -/
theorem iterate_looped (d : FlowDriver) (r : Round) :
    Looped d (d.loopCalls r) (d.iterate r).1 (d.iterate r).2 := by
  have hbefore : (d.cancelBy r.cancelBefore).cancellation =
      d.cancellation.cancelAll r.cancelBefore.toList := FlowCancellation.cancelBy_eq _ _
  -- what follows the calls from outside
  have hthen : ∀ {calls d' control}, Looped (d.cancelBy r.cancelBefore) calls d' control →
      Looped d (r.cancelBefore.toList ++ calls) d' control := by
    intro calls d' control h
    refine ⟨?_, h.state, h.transitions_eq, h.cancelled⟩
    rw [FlowCancellation.cancelAll_append, ← hbefore]
    exact h.cancellation
  unfold iterate loopCalls
  by_cases hcancelled : (d.cancelBy r.cancelBefore).cancellation.isCancelled = true
  · simp only [hcancelled, if_true]
    exact hthen ⟨rfl, rfl, rfl, fun _ => hcancelled⟩
  · simp only [hcancelled, Bool.false_eq_true, if_false]
    cases hready : (d.cancelBy r.cancelBefore).nextReady with
    | some e => exact hthen ((d.cancelBy r.cancelBefore).runStage_looped r e)
    | none => exact hthen ((d.cancelBy r.cancelBefore).idle_looped r)

/-! ## Lifecycles -/

/-- What every state of a driver that has been started satisfies. -/
structure Lifecycle (d : FlowDriver) : Prop where
  started : d.state = .running ∨ d.state = .draining ∨ d.state.isTerminal = true
  follows : Follows .instantiated (Reactor.transitions d.events) d.state
  terminal_once : (Reactor.transitions d.events).countP (·.2.isTerminal) =
    if d.state.isTerminal then 1 else 0
  reason : d.state ≠ .running → ∃ reason, d.cancellation.reason = some reason ∧
    d.drainReason = some reason
  ended : d.state.isTerminal = true → d.state = terminalState d.drainReason

/-- A driver enters its main loop. -/
theorem lifecycle_enterRunning (flowId : FlowId) (config : FlowConfig) (streams : List StreamState)
    (now wallClock : ℕ) :
    Lifecycle ((FlowDriver.new flowId config streams now).enterRunning now wallClock) :=
  ⟨.inl rfl, ⟨rfl, rfl, rfl⟩, rfl, fun h => absurd rfl h, fun h => by cases h⟩

/-- A cancelled flow with the same state and the same report. -/
theorem Lifecycle.of_looped {d d' : FlowDriver} {calls : List CancellationReason}
    {control : LoopControl} (h : Lifecycle d) (hrun : d.state = .running)
    (hlooped : Looped d calls d' control) : Lifecycle d' := by
  have hstate := hlooped.state
  refine ⟨.inl (hstate.trans hrun), ?_, ?_, fun hne => absurd (hstate.trans hrun) hne, fun hterminal => ?_⟩
  · rw [hlooped.transitions_eq, hstate]
    exact h.follows
  · rw [hlooped.transitions_eq, hstate]
    exact h.terminal_once
  · rw [hstate, hrun] at hterminal
    cases hterminal

/-- The drain phase begins. -/
theorem Lifecycle.beginDrain {d : FlowDriver} (h : Lifecycle d) (hrun : d.state = .running)
    (hcancelled : d.cancellation.isCancelled = true) (r : Round) : Lifecycle (d.beginDrain r) := by
  obtain ⟨reason, hreason⟩ := Option.isSome_iff_exists.mp hcancelled
  obtain ⟨hcontext, hevents, -⟩ := foldl_markSource (List.range d.topology.stages.length) d
  have hmarked : Reactor.transitions (d.beginDrain r).events =
      Reactor.transitions d.events ++ [(.running, .draining)] := by
    rw [← hevents]
    exact transitions_append _ _
  have hcancellation : (d.beginDrain r).cancellation = d.cancellation :=
    congrArg Context.cancellation hcontext
  refine ⟨.inr (.inl rfl), ?_, ?_, fun _ => ⟨reason, hcancellation ▸ hreason, hreason⟩,
    fun hterminal => by cases hterminal⟩
  · rw [hmarked, ← hrun]
    exact h.follows.snoc (by rw [hrun]; rfl)
  · have honce := h.terminal_once
    rw [hrun] at honce
    rw [hmarked, List.countP_append, honce]
    rfl

/-- The run ends. -/
theorem Lifecycle.finish {d : FlowDriver} (h : Lifecycle d) (hdrain : d.state = .draining)
    (r : Round) : Lifecycle (d.finish r) := by
  obtain ⟨reason, hreason, hdrained⟩ := h.reason (by simp [hdrain])
  have hstate : (d.finish r).state = terminalState d.drainReason := rfl
  have hterminal := d.isTerminal_finish r
  have hfinished : Reactor.transitions (d.finish r).events =
      Reactor.transitions d.events ++ [(.draining, terminalState d.drainReason)] := by
    have hdiscards : Reactor.transitions (d.streams.filterMap fun s =>
        if s.queue.drainAll.1.isEmpty then none
        else some (.discarded s.id s.queue.drainAll.1)) = [] := by
      refine List.filterMap_eq_nil_iff.mpr fun ev hev => ?_
      obtain ⟨s, -, hev⟩ := List.mem_filterMap.mp hev
      split at hev
      · cases hev
      · obtain rfl := Option.some.inj hev
        rfl
    have hforced : Reactor.transitions d.forceDrain.events = Reactor.transitions d.events := by
      show Reactor.transitions (d.events ++ _) = _
      rw [transitions_append, hdiscards, List.append_nil]
    show Reactor.transitions (d.forceDrain.events ++ [_] ++ [_]) = _
    rw [transitions_append, transitions_append, hforced]
    exact List.append_nil _
  refine ⟨.inr (.inr hterminal), ?_, ?_, fun _ => ⟨reason, hreason, hdrained⟩, fun _ => rfl⟩
  · have hfollows := h.follows
    rw [hdrain] at hfollows
    rw [hfinished, hstate]
    refine hfollows.snoc ?_
    rw [hdrained]
    cases reason <;> rfl
  · have honce := h.terminal_once
    rw [hdrain] at honce
    rw [hfinished, List.countP_append, honce, hterminal, List.countP_singleton, ← hstate, hterminal]
    rfl

/-- **One round** keeps the lifecycle. -/
theorem Lifecycle.step {d : FlowDriver} (h : Lifecycle d) (r : Round) : Lifecycle (d.step r) := by
  rcases h.started with hrun | hdrain | hterminal
  · have hlooped := d.iterate_looped r
    have hlooped' := h.of_looped hrun hlooped
    simp only [FlowDriver.step, hrun]
    cases hiterate : d.iterate r with
    | mk d' control =>
        rw [hiterate] at hlooped hlooped'
        cases control with
        | next => exact hlooped'
        | stop =>
            exact hlooped'.beginDrain (hlooped.state.trans hrun) (hlooped.cancelled rfl) r
  · rcases step_draining hdrain r with ⟨e, -, -, hstep⟩ | ⟨-, hstep⟩
    · have hcontext := d.context_executeStage r e
      have htransitions := (d.stageLogged_executeStage r e).transitions_eq
      have hstate : (d.executeStage r e).1.state = d.state := congrArg Context.state hcontext
      rw [hstep]
      refine ⟨.inr (.inl (hstate.trans hdrain)), ?_, ?_, fun _ => ?_, fun hterminal => ?_⟩
      · rw [htransitions, hstate]
        exact h.follows
      · rw [htransitions, hstate]
        exact h.terminal_once
      · have hcancellation : (d.executeStage r e).1.cancellation = d.cancellation :=
          congrArg Context.cancellation hcontext
        have hdrained : (d.executeStage r e).1.drainReason = d.drainReason :=
          congrArg Context.drainReason hcontext
        rw [hcancellation, hdrained]
        exact h.reason (by simp [hdrain])
      · rw [hstate, hdrain] at hterminal
        cases hterminal
    · rw [hstep]
      exact h.finish hdrain r
  · have hlive : d.state ≠ .running ∧ d.state ≠ .draining := by
      constructor <;> intro hstate <;> rw [hstate] at hterminal <;> cases hterminal
    rw [step_of_not_live hlive.1 hlive.2]
    exact h

/-- A call of `cancel` from outside keeps the lifecycle. -/
theorem Lifecycle.cancel {d : FlowDriver} (h : Lifecycle d) (reason : CancellationReason) :
    Lifecycle (d.withCancellation (d.cancellation.cancel reason)) := by
  refine ⟨h.started, h.follows, h.terminal_once, fun hne => ?_, h.ended⟩
  obtain ⟨first, hfirst, hdrained⟩ := h.reason hne
  exact ⟨first, by simp [withCancellation, FlowCancellation.cancel, hfirst], hdrained⟩

/-- **The token after a round**: it has been cancelled by the calls of the round. -/
theorem cancellation_step (d : FlowDriver) (r : Round) :
    (d.step r).cancellation = d.cancellation.cancelAll (d.cancelCalls r) := by
  by_cases hrun : d.state = .running
  · have hlooped := d.iterate_looped r
    have hcalls : d.cancelCalls r = d.loopCalls r := by simp only [cancelCalls, hrun]
    simp only [hcalls, FlowDriver.step, hrun]
    cases hiterate : d.iterate r with
    | mk d' control =>
        rw [hiterate] at hlooped
        cases control with
        | next => exact hlooped.cancellation
        | stop =>
            have hcontext := (foldl_markSource (List.range d'.topology.stages.length) d').1
            exact (congrArg Context.cancellation hcontext).trans hlooped.cancellation
  · have hcalls : d.cancelCalls r = [] := by
      unfold cancelCalls
      split
      · exact absurd ‹_› hrun
      · rfl
    rw [hcalls]
    by_cases hdrain : d.state = .draining
    · rcases step_draining hdrain r with ⟨e, -, -, hstep⟩ | ⟨-, hstep⟩
      · rw [hstep]
        exact congrArg Context.cancellation (d.context_executeStage r e)
      · rw [hstep]
        rfl
    · rw [step_of_not_live hrun hdrain]
      rfl

end FlowDriver

end Torvyn.Reactor
