/-
# Cancelled flows end

A flow of the coordinator that has been cancelled goes on for a bounded number of its own rounds:
one to notice, one for each execution that its queued elements can still cause, and one to end.
What else happens to it, and what happens to the other flows, makes no difference.
-/
import Torvyn.Reactor.Drivers
import Torvyn.Reactor.Work

namespace Torvyn.Reactor

open Coordinator

/-! ## Rounds -/

/-- The action is a round of the flow. -/
def Coordinator.Action.isRoundOf (flowId : FlowId) : Action → Bool
  | .round other _ => other = flowId
  | _ => false

/-- How many rounds of a flow there are among some actions. -/
def roundsOf (flowId : FlowId) (actions : List Action) : ℕ :=
  actions.countP (Action.isRoundOf flowId)

/-! ## The driver of a cancelled flow -/

variable {flowId : FlowId} {d : FlowDriver} {task : FlowTask} {n : ℕ}

/-- The driver of a flow satisfies the invariant of its topology until it ends. -/
theorem DriverOf.inv (h : DriverOf flowId d) (hlive : d.state = .running ∨ d.state = .draining) :
    d.topology.Valid ∧ DriverInv d.topology d := by
  obtain ⟨f, rounds, call, -, rfl⟩ := h
  have hinv := f.inv_run rounds hlive
  have htopology : ((f.run rounds).cancelBy call).topology = f.config.topology := hinv.topology
  rw [htopology]
  exact ⟨f.valid, hinv.topology, hinv.streamIndex, hinv.streams, hinv.live, hinv.active,
    hinv.sources⟩

/-- A running driver that has been cancelled begins to drain, with what is queued. -/
theorem drains_of_cancelled (hrun : d.state = .running)
    (hcancelled : d.cancellation.isCancelled = true) (r : Round) :
    (d.step r).state = .draining ∧ (d.step r).topology = d.topology ∧
      queuedWork d.topology (d.step r).streams = queuedWork d.topology d.streams := by
  obtain ⟨reason, hreason⟩ := Option.isSome_iff_exists.mp hcancelled
  have hsame := FlowDriver.cancelBy_of_cancelled hreason r.cancelBefore
  have hstep : d.step r = d.beginDrain r := by
    simp only [FlowDriver.step, hrun, FlowDriver.iterate, hsame, if_pos hcancelled]
  rw [hstep]
  exact ⟨rfl, (d.beginDrain_frame r).1,
    queuedWork_congr _ (FlowDriver.quiet_beginDrain d r).lenAt_eq⟩

/-- A round of a drain uses up queued work, or ends the run. -/
theorem shrinks_of_draining (h : DriverOf flowId d) (hdrain : d.state = .draining) (r : Round) :
    (d.step r).state = .draining ∧ (d.step r).topology = d.topology ∧
        queuedWork d.topology (d.step r).streams < queuedWork d.topology d.streams ∨
      (d.step r).state.isTerminal = true := by
  obtain ⟨hvalid, hinv⟩ := h.inv (.inr hdrain)
  rcases FlowDriver.step_draining hdrain r with ⟨e, hlt, he, hstep⟩ | ⟨-, hstep⟩
  · obtain ⟨hdrain', hinv', -⟩ := draining_executeStage hvalid hinv hdrain hstep
    obtain ⟨_, i, _, _, _, _, hsome, _⟩ := draining_takes hvalid hinv hdrain he r
    have hless := queuedWork_of_taken hvalid hinv he r
      (by rw [show d.takenFrom e = some i from hsome]; rfl)
    rw [← hstep] at hless
    exact .inl ⟨hdrain', hinv'.topology, hless⟩
  · rw [hstep]
    exact .inr (d.isTerminal_finish r)

/-! ## Its task -/

/-- A task that ends within `n` rounds: it has been cancelled, or it drains, or it has ended. -/
inductive EndsWithin (flowId : FlowId) (n : ℕ) : FlowTask → Prop
  | cancelled (d : FlowDriver) (hd : DriverOf flowId d) (hrun : d.state = .running)
      (hcancelled : d.cancellation.isCancelled = true)
      (hwork : queuedWork d.topology d.streams + 1 < n) : EndsWithin flowId n (.driver d)
  | draining (d : FlowDriver) (hd : DriverOf flowId d) (hdrain : d.state = .draining)
      (hwork : queuedWork d.topology d.streams < n) : EndsWithin flowId n (.driver d)
  | ended (task : FlowTask) (hfinished : task.isFinished = true) : EndsWithin flowId n task

theorem FlowTask.isFinished_driver {d : FlowDriver} (h : d.state.isTerminal = true) :
    (FlowTask.driver d).isFinished = true := by
  rw [isFinished, result, if_pos h]
  rfl

namespace EndsWithin

theorem cancel (h : EndsWithin flowId n task) (reason : CancellationReason) :
    EndsWithin flowId n (task.cancel reason) := by
  cases h with
  | cancelled d hd hrun hcancelled hwork => exact .cancelled _ (hd.cancel reason) hrun rfl hwork
  | draining d hd hdrain hwork => exact .draining _ (hd.cancel reason) hdrain hwork
  | ended task hfinished =>
      refine .ended _ ?_
      cases task <;> exact hfinished

theorem begin (h : EndsWithin flowId n task) (now wallClock : ℕ) :
    EndsWithin flowId n (task.begin now wallClock) := by
  cases h with
  | cancelled d hd hrun hcancelled hwork => exact .cancelled d hd hrun hcancelled hwork
  | draining d hd hdrain hwork => exact .draining d hd hdrain hwork
  | ended task hfinished =>
      refine .ended _ ?_
      cases task with
      | unstarted flowId' config streams cancellation => cases hfinished
      | driver | panicked | stub => exact hfinished

/-- A round brings the end nearer. -/
theorem round (h : EndsWithin flowId n task) (r : Round) :
    EndsWithin flowId (n - 1) (task.round r) := by
  cases h with
  | cancelled d hd hrun hcancelled hwork =>
      obtain ⟨hdrain, htopology, hsame⟩ := drains_of_cancelled hrun hcancelled r
      refine .draining _ (hd.step r) hdrain ?_
      rw [htopology, hsame]
      omega
  | draining d hd hdrain hwork =>
      rcases shrinks_of_draining hd hdrain r with ⟨hdrain', htopology, hless⟩ | hterminal
      · refine .draining _ (hd.step r) hdrain' ?_
        rw [htopology]
        omega
      · exact .ended _ (FlowTask.isFinished_driver hterminal)
  | ended task hfinished =>
      cases task with
      | driver d =>
          have hterminal : d.state.isTerminal = true := by
            by_contra hnot
            rw [FlowTask.isFinished, FlowTask.result, if_neg hnot] at hfinished
            cases hfinished
          have hsame : d.step r = d := by
            refine FlowDriver.step_of_not_live ?_ ?_ r <;> intro hstate <;>
              rw [hstate] at hterminal <;> cases hterminal
          show EndsWithin flowId (n - 1) (.driver (d.step r))
          rw [hsame]
          exact .ended _ hfinished
      | unstarted flowId' config streams cancellation => cases hfinished
      | panicked d message => exact .ended _ rfl
      | stub cancellation => exact .ended _ rfl

theorem panic (h : EndsWithin flowId n task) (message : String) :
    EndsWithin flowId n (task.panic message) := by
  have hdriver : ∀ d : FlowDriver, (FlowTask.panic message (.driver d)).isFinished = true := by
    intro d
    show (if d.state.isTerminal then FlowTask.driver d else .panicked d message).isFinished = true
    split
    · exact FlowTask.isFinished_driver ‹_›
    · rfl
  cases h with
  | cancelled d | draining d => exact .ended _ (hdriver d)
  | ended task hfinished =>
      cases task with
      | driver d => exact .ended _ (hdriver d)
      | unstarted | panicked | stub => exact .ended _ hfinished

/-- **One action** that concerns the flow. -/
theorem act (h : EndsWithin flowId n task) (action : Action)
    (hconcerns : action.concerns flowId = true) :
    EndsWithin flowId (n - if action.isRoundOf flowId then 1 else 0) (task.act action) := by
  cases action with
  | command command order hash =>
      cases command with
      | cancelFlow other reason => exact h.cancel reason
      | createFlow | queryFlowState | queryFlowOutcome | listFlows | updatePriority | spawnFlow =>
          exact h
  | beginShutdown => exact h.cancel .operatorRequest
  | beginTask other now wallClock => exact h.begin now wallClock
  | round other r =>
      rw [if_pos (show Action.isRoundOf flowId (.round other r) = true from hconcerns)]
      exact h.round r
  | panic other message => exact h.panic message
  | pass | resource => exact h

/-- **Any number of actions.** -/
theorem after (h : EndsWithin flowId n task) (actions : List Action) :
    EndsWithin flowId (n - roundsOf flowId actions) (task.after flowId actions) := by
  induction actions generalizing n task with
  | nil => exact h
  | cons action actions ih =>
      rw [FlowTask.after_cons, roundsOf, List.countP_cons, Nat.add_comm, Nat.sub_add_eq]
      by_cases hconcerns : action.concerns flowId = true
      · rw [if_pos hconcerns]
        exact ih (h.act action hconcerns)
      · -- a round of the flow concerns it
        have hother : action.isRoundOf flowId = false := by
          cases action with
          | round other r => exact Bool.not_eq_true _ ▸ hconcerns
          | command | beginShutdown | pass | beginTask | panic | resource => rfl
        rw [if_neg hconcerns, hother]
        exact ih h

/-- After as many rounds the task has ended. -/
theorem isFinished (h : EndsWithin flowId n task) {actions : List Action}
    (hmany : n ≤ roundsOf flowId actions) : (task.after flowId actions).isFinished = true := by
  have hzero : n - roundsOf flowId actions = 0 := Nat.sub_eq_zero_of_le hmany
  have hends := h.after actions
  rw [hzero] at hends
  generalize task.after flowId actions = last at hends
  cases hends with
  | cancelled _ _ _ _ hwork | draining _ _ _ hwork => exact absurd hwork (Nat.not_lt_zero _)
  | ended _ hfinished => exact hfinished

end EndsWithin

end Torvyn.Reactor
