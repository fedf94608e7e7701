/-
# Agreement on how a flow ended

The reason a flow ends for is written by whoever cancels it first and read by its driver, by
the drain phase, and by the coordinator once the task is over.  They agree: on the reason, and
on the terminal state that goes with it.

A panicked task returns no state, and a stub runs no driver.
-/
import Torvyn.Reactor.Tasks

namespace Torvyn.Reactor

/-- What is said of a driver whose token has been cancelled by the given calls. -/
structure Agreement (calls : List CancellationReason) (d : FlowDriver) : Prop where
  first_wins : d.cancellation.reason = calls.head?
  emitted : Follows .instantiated (Reactor.transitions d.events) d.state
  terminal_once : (Reactor.transitions d.events).countP (·.2.isTerminal) =
    if d.state.isTerminal then 1 else 0
  agrees : d.state.isTerminal = true →
    ∃ reason, calls.head? = some reason ∧ AgreesWith d.state reason

/-- The token and the lifecycle of a driver make it agree. -/
theorem FlowTask.Sound.agreement {task : FlowTask} {calls : List CancellationReason}
    (h : task.Sound calls) {d : FlowDriver} (hd : task.driver? = some d) : Agreement calls d := by
  have hlifecycle := h.lifecycle d hd
  have htoken : d.cancellation = task.cancellation := by
    cases task with
    | unstarted | stub => cases hd
    | driver | panicked =>
        cases hd
        rfl
  have hfirst : d.cancellation.reason = calls.head? := by
    rw [htoken, h.token, FlowCancellation.reason_cancelAll]
    rfl
  refine ⟨hfirst, hlifecycle.follows, hlifecycle.terminal_once, fun hterminal => ?_⟩
  have hnotRunning : d.state ≠ .running := by
    intro hrun
    rw [hrun] at hterminal
    cases hterminal
  obtain ⟨reason, hreason, hdrained⟩ := hlifecycle.reason hnotRunning
  refine ⟨reason, hfirst.symm.trans hreason, ?_⟩
  rw [hlifecycle.ended hterminal, hdrained]
  exact agreesWith_terminalState reason

/-- The parties agree, for every flow. -/
structure Coordinator.TerminalAgreement (c : Coordinator) : Prop where
  /-- whether the driver still runs, has ended or has been reaped -/
  driven : ∀ flowId task d, c.Known flowId task → task.driver? = some d →
    Agreement (callsOf flowId c.log) d
  /-- what the task of a reaped flow has returned -/
  returned : ∀ flowId d, .reaped flowId (.driver d) ∈ c.log →
    d.state.isTerminal = true ∧ (FlowTask.driver d).result = some (.ok d.state)
  /-- what the coordinator retains of it -/
  retained : ∀ flowId d outcome, .reaped flowId (.driver d) ∈ c.log →
    c.outcomes.lookup flowId = some outcome →
    outcome.state = d.state ∧ outcome.reason = (callsOf flowId c.log).head?
  /-- what it retains of a flow whose driver has panicked -/
  panicked : ∀ flowId d message outcome, .reaped flowId (.panicked d message) ∈ c.log →
    c.outcomes.lookup flowId = some outcome →
    ∃ reason, outcome.reason = some reason ∧ AgreesWith outcome.state reason

/-- **Terminal state agreement**: the first recorded reason wins; the state a driver ends in is
the one that goes with that reason, and the state it reports, the state it returns and the
outcome retained of it are the same. -/
theorem terminal_state_agreement (ρ : CoordinatorRun) : ρ.final.TerminalAgreement := by
  have htracked := ρ.tracked
  have hdriven : ∀ flowId task d, ρ.final.Known flowId task → task.driver? = some d →
      Agreement (callsOf flowId ρ.final.log) d :=
    fun flowId task d hknown hd => (htracked.sound hknown).agreement hd
  -- only a driver in a terminal state is reaped
  have hreturned : ∀ flowId d, .reaped flowId (.driver d) ∈ ρ.final.log →
      d.state.isTerminal = true ∧ (FlowTask.driver d).result = some (.ok d.state) := by
    intro flowId d hreaped
    obtain ⟨result, hresult⟩ := htracked.finished hreaped
    have hresult' : (if d.state.isTerminal then some (.ok d.state) else none) = some result :=
      hresult
    by_cases hterminal : d.state.isTerminal = true
    · exact ⟨hterminal, if_pos hterminal⟩
    · rw [if_neg hterminal] at hresult'
      cases hresult'
  refine ⟨hdriven, hreturned, fun flowId d outcome hreaped hkept => ?_,
    fun flowId d message outcome hreaped hkept => ?_⟩
  · obtain ⟨task, result, hreaped', hresult, rfl⟩ := htracked.kept hkept
    obtain rfl := htracked.once hreaped hreaped'
    rw [(hreturned flowId d hreaped).2] at hresult
    obtain rfl := Option.some.inj hresult
    exact ⟨rfl, (hdriven flowId _ d (.inr hreaped) rfl).first_wins⟩
  · obtain ⟨task, result, hreaped', hresult, rfl⟩ := htracked.kept hkept
    obtain rfl := htracked.once hreaped hreaped'
    obtain rfl := Option.some.inj hresult
    exact ⟨_, rfl, by simp [FlowTask.outcomeOf], by simp [FlowTask.outcomeOf],
      by simp [FlowTask.outcomeOf]⟩

end Torvyn.Reactor
