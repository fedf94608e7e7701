/-
# The drivers of the coordinator's flows

What is proved of a flow driver is proved of the runs of a `SpawnedFlow`, which is cancelled by
its rounds alone.  The coordinator of `torvyn-reactor/src/coordinator.rs` cancels its flows at any
time in between.  A driver sees that at the beginning of its next round, so every driver that the
coordinator has or has reaped is such a run, up to a call that it has not yet seen
(`drivers_are_spawned`).
-/
import Torvyn.Reactor.Independence

namespace Torvyn.Reactor

/-! ## Calls between two rounds -/

/-- Of two calls the first that has a reason counts. -/
theorem FlowCancellation.cancelBy_cancelBy (c : FlowCancellation)
    (first second : Option CancellationReason) :
    (c.cancelBy first).cancelBy second = c.cancelBy (first.or second) := by
  obtain ⟨reason⟩ := c
  cases first <;> cases second <;> cases reason <;> rfl

namespace FlowDriver

theorem cancelBy_cancelBy (d : FlowDriver) (first second : Option CancellationReason) :
    (d.cancelBy first).cancelBy second = d.cancelBy (first.or second) :=
  congrArg d.withCancellation (d.cancellation.cancelBy_cancelBy first second)

/-- A call that finds the flow cancelled changes nothing. -/
theorem cancelBy_of_cancelled {d : FlowDriver} {reason : CancellationReason}
    (h : d.cancellation.reason = some reason) (call : Option CancellationReason) :
    d.cancelBy call = d := by
  have hsame : d.cancellation.cancelBy call = d.cancellation := by
    cases call with
    | none => rfl
    | some call =>
        show FlowCancellation.mk (some (d.cancellation.reason.getD call)) = d.cancellation
        rw [h, Option.getD_some, ← h]
  show d.withCancellation (d.cancellation.cancelBy call) = d
  rw [hsame]
  rfl

/-- A running driver sees a call at the beginning of its next round. -/
theorem step_cancelBy {d : FlowDriver} (hrun : d.state = .running)
    (call : Option CancellationReason) (r : Round) :
    (d.cancelBy call).step r = d.step { r with cancelBefore := call.or r.cancelBefore } := by
  have hiterate : (d.cancelBy call).iterate r =
      d.iterate { r with cancelBefore := call.or r.cancelBefore } := by
    show (if ((d.cancelBy call).cancelBy r.cancelBefore).cancellation.isCancelled then _ else _) =
      (if (d.cancelBy (call.or r.cancelBefore)).cancellation.isCancelled then _ else _)
    rw [cancelBy_cancelBy]
    rfl
  have hrun' : (d.cancelBy call).state = .running := hrun
  unfold step
  simp only [hrun, hrun', hiterate]
  rfl

end FlowDriver

/-! ## The drivers of a flow -/

theorem lifecycle_run (f : BuiltFlow) (rounds : List Round) : (f.run rounds).Lifecycle := by
  induction rounds using List.reverseRecOn with
  | nil => exact FlowDriver.lifecycle_enterRunning _ _ _ _ _
  | append_singleton rounds r ih =>
      rw [f.run_snoc]
      exact ih.step r

/-- The driver is a run of a spawned flow with this id, up to a call that it has not yet seen. -/
def DriverOf (flowId : FlowId) (d : FlowDriver) : Prop :=
  ∃ (f : SpawnedFlow) (rounds : List Round) (call : Option CancellationReason),
    f.flowId = flowId ∧ d = (f.run rounds).cancelBy call

namespace DriverOf

variable {flowId : FlowId} {d : FlowDriver}

theorem cancel (h : DriverOf flowId d) (reason : CancellationReason) :
    DriverOf flowId (d.withCancellation (d.cancellation.cancel reason)) := by
  obtain ⟨f, rounds, call, hid, rfl⟩ := h
  exact ⟨f, rounds, call.or (some reason), hid,
    (f.run rounds).cancelBy_cancelBy call (some reason)⟩

/-- A round that begins with the call. -/
theorem step (h : DriverOf flowId d) (r : Round) : DriverOf flowId (d.step r) := by
  obtain ⟨f, rounds, call, hid, rfl⟩ := h
  by_cases hrun : (f.run rounds).state = .running
  · refine ⟨f, rounds ++ [{ r with cancelBefore := call.or r.cancelBefore }], none, hid, ?_⟩
    rw [FlowDriver.step_cancelBy hrun, f.run_snoc]
    rfl
  · -- a driver that drains has been cancelled before
    obtain ⟨reason, hreason, -⟩ := (lifecycle_run f.toBuiltFlow rounds).reason hrun
    refine ⟨f, rounds ++ [r], none, hid, ?_⟩
    rw [FlowDriver.cancelBy_of_cancelled hreason, f.run_snoc]
    rfl

end DriverOf

/-! ## The tasks of a flow -/

/-- What the task of a flow can be. -/
inductive TaskOf (flowId : FlowId) : FlowTask → Prop
  | unstarted (config : FlowConfig) (streams : List StreamState)
      (call : Option CancellationReason) (hvalid : config.topology.validate = .ok ())
      (hbuilt : spawnStreams flowId config = some streams) :
      TaskOf flowId (.unstarted flowId config streams (FlowCancellation.new.cancelBy call))
  | driver (d : FlowDriver) (hd : DriverOf flowId d) : TaskOf flowId (.driver d)
  | panicked (d : FlowDriver) (message : String) (hd : DriverOf flowId d) :
      TaskOf flowId (.panicked d message)
  | stub (cancellation : FlowCancellation) : TaskOf flowId (.stub cancellation)

namespace TaskOf

variable {flowId : FlowId} {task : FlowTask}

theorem cancel (h : TaskOf flowId task) (reason : CancellationReason) :
    TaskOf flowId (task.cancel reason) := by
  cases h with
  | unstarted config streams call hvalid hbuilt =>
      have hcancel : (FlowCancellation.new.cancelBy call).cancel reason =
          FlowCancellation.new.cancelBy (call.or (some reason)) :=
        FlowCancellation.new.cancelBy_cancelBy call (some reason)
      show TaskOf flowId (.unstarted flowId config streams _)
      rw [hcancel]
      exact .unstarted config streams _ hvalid hbuilt
  | driver d hd => exact .driver _ (hd.cancel reason)
  | panicked d message hd => exact .panicked _ message (hd.cancel reason)
  | stub cancellation => exact .stub _

/-- The main loop begins with the call that the task has got while it waited. -/
theorem begin (h : TaskOf flowId task) (now wallClock : ℕ) :
    TaskOf flowId (task.begin now wallClock) := by
  cases h with
  | unstarted config streams call hvalid hbuilt =>
      exact .driver _
        ⟨⟨⟨flowId, config, streams, now, wallClock, hbuilt⟩, hvalid⟩, [], call, rfl, rfl⟩
  | driver d hd => exact .driver d hd
  | panicked d message hd => exact .panicked d message hd
  | stub cancellation => exact .stub cancellation

theorem round (h : TaskOf flowId task) (r : Round) : TaskOf flowId (task.round r) := by
  cases h with
  | driver d hd => exact .driver _ (hd.step r)
  | unstarted config streams call hvalid hbuilt =>
      exact .unstarted config streams call hvalid hbuilt
  | panicked d message hd => exact .panicked d message hd
  | stub cancellation => exact .stub cancellation

theorem panic (h : TaskOf flowId task) (message : String) :
    TaskOf flowId (task.panic message) := by
  cases h with
  | driver d hd =>
      show TaskOf flowId (if d.state.isTerminal then .driver d else .panicked d message)
      split
      · exact .driver d hd
      · exact .panicked d message hd
  | unstarted config streams call hvalid hbuilt =>
      exact .unstarted config streams call hvalid hbuilt
  | panicked d message hd => exact .panicked d message hd
  | stub cancellation => exact .stub cancellation

theorem act (h : TaskOf flowId task) (action : Coordinator.Action) :
    TaskOf flowId (task.act action) := by
  unfold FlowTask.act
  split
  · exact h.cancel _
  · exact h.cancel _
  · exact h.begin _ _
  · exact h.round _
  · exact h.panic _
  · exact h

end TaskOf

namespace Coordinator

/-- The task of every flow, live or reaped, is one that it can have. -/
def Spawned (c : Coordinator) : Prop := ∀ flowId task, c.Known flowId task → TaskOf flowId task

variable {c c' : Coordinator}

theorem spawned_new (resources : ResourceManager) : (new resources).Spawned := by
  rintro flowId task (⟨entry, hlive, -⟩ | hreaped)
  · cases hlive
  · cases hreaped

/-- Live flows with tasks that they can have, and nothing more reaped. -/
theorem Spawned.of_flows (h : c.Spawned)
    (hflows : ∀ flowId entry, c'.flows.lookup flowId = some entry → TaskOf flowId entry.task)
    (hlog : ∀ flowId task, .reaped flowId task ∈ c'.log → .reaped flowId task ∈ c.log) :
    c'.Spawned := by
  rintro flowId task (⟨entry, hlive, rfl⟩ | hreaped)
  · exact hflows flowId entry hlive
  · exact h flowId task (.inr (hlog flowId task hreaped))

theorem Spawned.live (h : c.Spawned) {flowId : FlowId} {entry : FlowEntry}
    (hlive : c.flows.lookup flowId = some entry) : TaskOf flowId entry.task :=
  h flowId entry.task (.inl ⟨entry, hlive, rfl⟩)

theorem Spawned.register (h : c.Spawned) {config : FlowConfig} {task : FlowTask}
    (htask : TaskOf ⟨c.nextFlowId⟩ task) : (c.register config task).Spawned := by
  refine h.of_flows (fun flowId entry hlive => ?_) fun _ _ hreaped => hreaped
  have hlive : (c.flows.insert _ _).lookup flowId = some entry := hlive
  by_cases hid : flowId = ⟨c.nextFlowId⟩
  · subst hid
    rw [AList.lookup_insert] at hlive
    obtain rfl := Option.some.inj hlive
    exact htask
  · rw [AList.lookup_insert_ne hid] at hlive
    exact h.live hlive

/-- One live flow gets another task. -/
theorem Spawned.modify (h : c.Spawned) {flowId : FlowId} {change : FlowEntry → FlowEntry}
    (hchange : ∀ entry, c.flows.lookup flowId = some entry → TaskOf flowId (change entry).task)
    {log : List CoordinatorEvent}
    (hlog : ∀ flowId task, .reaped flowId task ∈ log → .reaped flowId task ∈ c.log) :
    { c with flows := c.flows.modify flowId change, log := log }.Spawned := by
  refine h.of_flows (fun flowId' entry hlive => ?_) hlog
  have hlive : (c.flows.modify flowId change).lookup flowId' = some entry := hlive
  rw [KeyMap.lookup_modify] at hlive
  by_cases hid : flowId' = flowId
  · rw [if_pos hid] at hlive
    obtain ⟨entry₀, hlive₀, rfl⟩ := Option.map_eq_some_iff.mp hlive
    rw [hid]
    exact hchange entry₀ hlive₀
  · rw [if_neg hid] at hlive
    exact h.live hlive

theorem Spawned.spawnFlow (h : c.Spawned) {config : FlowConfig} {instances : ℕ}
    {result : Except FlowCreationError FlowId}
    (hspawn : c.spawnFlowWithInstances config instances = some (result, c')) : c'.Spawned := by
  unfold spawnFlowWithInstances at hspawn
  split at hspawn
  · cases hspawn
    exact h
  · rename_i hvalid
    dsimp only at hspawn
    split at hspawn
    · cases hspawn
      exact h
    · obtain ⟨streams, hstreams, heq⟩ := Option.map_eq_some_iff.mp hspawn
      cases heq
      have h' : { c with resources := c.resources.registerFlow ⟨c.nextFlowId⟩ }.Spawned := h
      exact h'.register (.unstarted config streams none hvalid hstreams)

theorem Spawned.createFlow (h : c.Spawned) {config : FlowConfig}
    {result : Except FlowCreationError FlowId}
    (hcreate : c.createFlow config = some (result, c')) : c'.Spawned := by
  unfold Coordinator.createFlow at hcreate
  split at hcreate
  · cases hcreate
    exact h
  · obtain ⟨streams, -, heq⟩ := Option.map_eq_some_iff.mp hcreate
    cases heq
    exact h.register (.stub _)

theorem Spawned.handleCommand (h : c.Spawned) {command : ReactorCommand} {reply : ReactorReply}
    (hcommand : c.handleCommand command = some (reply, c')) : c'.Spawned := by
  cases command with
  | createFlow config =>
      simp only [Coordinator.handleCommand] at hcommand
      split at hcommand
      · cases hcommand
        exact h
      · obtain ⟨⟨result, c₁⟩, hcreate, heq⟩ := Option.map_eq_some_iff.mp hcommand
        cases heq
        exact h.createFlow hcreate
  | spawnFlow config instances =>
      simp only [Coordinator.handleCommand] at hcommand
      split at hcommand
      · cases hcommand
        exact h
      · obtain ⟨⟨result, c₁⟩, hspawn, heq⟩ := Option.map_eq_some_iff.mp hcommand
        cases heq
        exact h.spawnFlow hspawn
  | cancelFlow flowId reason =>
      cases hcommand
      show (c.cancelFlow flowId reason).2.Spawned
      unfold cancelFlow
      split
      · refine h.modify (fun entry hlive => (h.live hlive).cancel reason) fun _ _ hreaped => ?_
        exact mem_log_of_mem_append hreaped fun event hevent =>
          ⟨flowId, reason, List.mem_singleton.mp hevent⟩
      · exact h
  | queryFlowState | queryFlowOutcome | listFlows | updatePriority =>
      cases hcommand
      exact h

/-- A flow that is taken out had the task that is recorded. -/
theorem Spawned.reapFlow (h : c.Spawned) (hash : HashOrder) (flowId : FlowId) :
    (c.reapFlow hash flowId).Spawned := by
  unfold Coordinator.reapFlow
  cases hlive : c.flows.lookup flowId with
  | none => exact h
  | some entry =>
      simp only
      cases hresult : entry.task.result with
      | none => exact h
      | some result =>
          obtain ⟨ids, hlog, hflows, -⟩ :=
            c.take_frame flowId entry.task (entry.task.outcomeOf result)
          suffices htaken : (c.take flowId entry.task (entry.task.outcomeOf result)).Spawned from
            htaken
          rintro flowId' task (⟨entry', hlive', rfl⟩ | hreaped)
          · rw [hflows] at hlive'
            by_cases hid : flowId' = flowId
            · rw [hid, AList.lookup_erase] at hlive'
              cases hlive'
            · rw [AList.lookup_erase_ne hid] at hlive'
              exact h.live hlive'
          · rw [hlog] at hreaped
            rcases List.mem_append.mp hreaped with hreaped | hreaped
            · exact h flowId' task (.inr hreaped)
            · rcases List.mem_cons.mp hreaped with heq | hevicted
              · cases heq
                exact h.live hlive
              · obtain ⟨_, -, heq⟩ := List.mem_map.mp hevicted
                cases heq

theorem Spawned.reapCompletedFlows (h : c.Spawned) (order : List FlowId) (hash : HashOrder) :
    (c.reapCompletedFlows order hash).Spawned := by
  unfold Coordinator.reapCompletedFlows
  induction c.completedIds order generalizing c with
  | nil => exact h
  | cons flowId ids ih => exact ih (h.reapFlow hash flowId)

theorem Spawned.withTask (h : c.Spawned) {flowId : FlowId} {task : FlowTask}
    (htask : TaskOf flowId task) : (c.withTask flowId task).Spawned :=
  h.modify (fun _ _ => htask) fun _ _ hreaped => hreaped

/-- **One action** leaves every flow with a task that it can have. -/
theorem Spawned.step (h : c.Spawned) {action : Action} (hstep : c.step action = some c') :
    c'.Spawned := by
  cases action with
  | command command order hash =>
      obtain ⟨⟨reply, c₁⟩, hcommand, rfl⟩ := Option.map_eq_some_iff.mp hstep
      exact (h.handleCommand hcommand).reapCompletedFlows order hash
  | beginShutdown =>
      cases hstep
      refine h.of_flows (fun flowId entry hlive => ?_) fun flowId task hreaped => ?_
      · have hlive : (c.flows.mapValues _).lookup flowId = some entry := hlive
        rw [KeyMap.lookup_mapValues] at hlive
        obtain ⟨entry₀, hlive₀, rfl⟩ := Option.map_eq_some_iff.mp hlive
        exact (h.live hlive₀).cancel _
      · refine mem_log_of_mem_append hreaped fun event hevent => ?_
        obtain ⟨flowId, -, rfl⟩ := List.mem_map.mp hevent
        exact ⟨flowId, _, rfl⟩
  | pass order hash =>
      cases hstep
      exact h.reapCompletedFlows order hash
  | beginTask flowId now wallClock =>
      cases hstep
      show (c.beginTask flowId now wallClock).Spawned
      unfold beginTask
      split
      · rename_i hlive
        exact h.withTask ((h.live hlive).begin now wallClock)
      · exact h
  | round flowId r =>
      cases hstep
      show (c.roundOf flowId r).Spawned
      unfold roundOf
      split
      · rename_i handle d componentIds hlive
        refine h.modify (fun _ _ => (h.live hlive).round r) fun flowId task hreaped => ?_
        refine mem_log_of_mem_append hreaped fun event hevent => ?_
        obtain ⟨reason, -, rfl⟩ := List.mem_map.mp hevent
        exact ⟨_, reason, rfl⟩
      · exact h
  | panic flowId message =>
      cases hstep
      show (c.panicTask flowId message).Spawned
      unfold panicTask
      split
      · rename_i handle d componentIds hlive
        split
        · exact h
        · rename_i hrun
          have htask := (h.live hlive).panic message
          rw [show FlowTask.panic message (.driver d) = .panicked d message from if_neg hrun]
            at htask
          exact h.withTask htask
      · exact h
  | resource op =>
      cases hstep
      exact h

theorem Spawned.run (h : c.Spawned) {actions : List Action} (hrun : c.run actions = some c') :
    c'.Spawned := by
  induction actions generalizing c with
  | nil =>
      cases hrun
      exact h
  | cons action actions ih =>
      obtain ⟨c₁, hstep, hrun⟩ := Option.bind_eq_some_iff.mp hrun
      exact ih (h.step hstep) hrun

end Coordinator

/-- **The drivers are spawned flows.**  In every state of the coordinator, the driver of each flow
that is live or has been reaped, also of one that has panicked, is a run of a spawned flow of that
id, up to a call of `cancel` that its next round sees. -/
theorem drivers_are_spawned (ρ : CoordinatorRun) {flowId : FlowId} {task : FlowTask}
    (hknown : ρ.final.Known flowId task) {d : FlowDriver} (hd : task.driver? = some d) :
    ∃ (f : SpawnedFlow) (rounds : List Round) (call : Option CancellationReason),
      f.flowId = flowId ∧ d = (f.run rounds).cancelBy call := by
  have htask := (Coordinator.spawned_new ρ.resources).run ρ.reached flowId task hknown
  cases htask with
  | unstarted config streams call hvalid hbuilt => cases hd
  | driver d' hdriver =>
      cases hd
      exact hdriver
  | panicked d' message hdriver =>
      cases hd
      exact hdriver
  | stub cancellation => cases hd

/-- The driver of a flow that has begun. -/
theorem drivers_are_spawned_beginning : ∃ d,
    (beginningRun.final.flows.lookup ⟨1⟩).bind (fun entry => entry.task.driver?) = some d ∧
      ∃ (f : SpawnedFlow) (rounds : List Round) (call : Option CancellationReason),
        f.flowId = ⟨1⟩ ∧ d = (f.run rounds).cancelBy call :=
  ⟨_, rfl, drivers_are_spawned beginningRun (.inl ⟨_, rfl, rfl⟩) rfl⟩

end Torvyn.Reactor
