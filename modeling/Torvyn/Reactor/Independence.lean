/-
# Flows side by side

The coordinator of `torvyn-reactor/src/coordinator.rs` serves any number of flows, and their
actions interleave in any order.  What happens to a flow is nevertheless decided by its own
actions alone: `flows_independent` finds its task in every later state of the coordinator, or in
the record of what has been reaped, by letting the actions that concern it act on its task.
-/
import Torvyn.Reactor.Queries

namespace Torvyn.Reactor

open Coordinator

/-! ## What an action does to one task -/

namespace FlowTask

/-- The task runs for the first time. -/
def begin (now wallClock : ℕ) : FlowTask → FlowTask
  | .unstarted flowId config streams cancellation =>
      .driver (((FlowDriver.new flowId config streams now).enterRunning now wallClock
        ).withCancellation cancellation)
  | task => task

/-- The driver executes a round. -/
def round (r : Round) : FlowTask → FlowTask
  | .driver d => .driver (d.step r)
  | task => task

/-- The driver panics, if it has not ended. -/
def panic (message : String) : FlowTask → FlowTask
  | .driver d => if d.state.isTerminal then .driver d else .panicked d message
  | task => task

end FlowTask

/-- The action concerns the flow. -/
def Coordinator.Action.concerns (flowId : FlowId) : Action → Bool
  | .command (.cancelFlow other _) _ _ => other = flowId
  | .beginShutdown => true
  | .beginTask other _ _ | .round other _ | .panic other _ => other = flowId
  | _ => false

/-- What an action that concerns the flow of a task does to the task. -/
def FlowTask.act (task : FlowTask) : Action → FlowTask
  | .command (.cancelFlow _ reason) _ _ => task.cancel reason
  | .beginShutdown => task.cancel .operatorRequest
  | .beginTask _ now wallClock => task.begin now wallClock
  | .round _ r => task.round r
  | .panic _ message => task.panic message
  | _ => task

/-- The entry of a flow after an action. -/
def FlowEntry.act (flowId : FlowId) (entry : FlowEntry) (action : Action) :
    FlowEntry :=
  if action.concerns flowId then { entry with task := entry.task.act action } else entry

/-- The task of a flow after some actions of the coordinator. -/
def FlowTask.after (flowId : FlowId) (actions : List Action) (task : FlowTask) : FlowTask :=
  (actions.filter (Action.concerns flowId)).foldl FlowTask.act task

theorem FlowTask.after_cons (flowId : FlowId) (action : Action) (actions : List Action)
    (task : FlowTask) : task.after flowId (action :: actions) =
      FlowTask.after flowId actions
        (if action.concerns flowId then task.act action else task) := by
  unfold FlowTask.after
  rw [List.filter_cons]
  split <;> rfl

/-! ## The record only grows -/

namespace Coordinator

variable {begins : Prop} {c c' : Coordinator} {flowId : FlowId} {entry : FlowEntry}

theorem Change.log_prefix (h : Change begins c c') : c.log <+: c'.log := by
  cases h with
  | registered | resources => exact List.prefix_rfl
  | advanced | shutdown => exact List.prefix_append _ _
  | @taken flowId entry result =>
      obtain ⟨ids, hlog, -⟩ := c.take_frame flowId entry.task (entry.task.outcomeOf result)
      rw [hlog]
      exact List.prefix_append _ _

theorem changes_log_grows (h : Changes begins c c') : c.log <+: c'.log := by
  induction h with
  | refl => exact List.prefix_rfl
  | tail _ hchange ih => exact ih.trans hchange.log_prefix

theorem run_log_grows {actions : List Action} (h : c.run actions = some c') :
    c.log <+: c'.log := by
  induction actions generalizing c with
  | nil =>
      cases h
      exact List.prefix_rfl
  | cons action actions ih =>
      obtain ⟨c₁, hstep, hrun⟩ := Option.bind_eq_some_iff.mp h
      exact (changes_log_grows (step_changes hstep)).trans (ih hrun)

/-! ## A pass -/

/-- The flow is live as the entry says, or its task has been reaped. -/
def Holds (c : Coordinator) (flowId : FlowId) (entry : FlowEntry) : Prop :=
  c.flows.lookup flowId = some entry ∨
    c.flows.lookup flowId = none ∧ .reaped flowId entry.task ∈ c.log

/-- Taking a flow out leaves the others alone. -/
theorem reapFlow_holds (h : c.Holds flowId entry) (hash : HashOrder) (other : FlowId) :
    (c.reapFlow hash other).Holds flowId entry := by
  unfold reapFlow
  cases hother : c.flows.lookup other with
  | none => exact h
  | some entry' =>
      simp only
      cases hresult : entry'.task.result with
      | none => exact h
      | some result =>
          obtain ⟨ids, hlog, hflows, -⟩ :=
            c.take_frame other entry'.task (entry'.task.outcomeOf result)
          show (c.take other entry'.task (entry'.task.outcomeOf result)).flows.lookup flowId = _ ∨
            (c.take other entry'.task (entry'.task.outcomeOf result)).flows.lookup flowId = none ∧
              _ ∈ (c.take other entry'.task (entry'.task.outcomeOf result)).log
          rw [hlog, hflows]
          by_cases hid : flowId = other
          · -- the flow itself is taken out, with the task that it has
            subst hid
            rcases h with hlive | ⟨hgone, -⟩
            · rw [hlive] at hother
              obtain rfl := Option.some.inj hother
              exact .inr ⟨AList.lookup_erase flowId c.flows, by simp⟩
            · rw [hgone] at hother
              cases hother
          · rw [AList.lookup_erase_ne hid]
            rcases h with hlive | ⟨hgone, hreaped⟩
            · exact .inl hlive
            · exact .inr ⟨hgone, List.mem_append_left _ hreaped⟩

theorem reapCompletedFlows_holds (h : c.Holds flowId entry) (order : List FlowId)
    (hash : HashOrder) : (c.reapCompletedFlows order hash).Holds flowId entry := by
  unfold reapCompletedFlows
  induction c.completedIds order generalizing c with
  | nil => exact h
  | cons other ids ih => exact ih (reapFlow_holds h hash other)

/-! ## An action -/

/-- A new flow gets an id of its own. -/
theorem lookup_register (htracked : Tracked c) (hlive : c.flows.lookup flowId = some entry)
    (config : FlowConfig) (task : FlowTask) :
    (c.register config task).flows.lookup flowId = some entry := by
  have hlt : flowId.id < c.nextFlowId := htracked.known_lt (.inl ⟨entry, hlive, rfl⟩)
  have hne : flowId ≠ ⟨c.nextFlowId⟩ := by
    rintro rfl
    exact Nat.lt_irrefl _ hlt
  exact (AList.lookup_insert_ne hne).trans hlive

theorem lookup_spawnFlow (htracked : Tracked c) (hlive : c.flows.lookup flowId = some entry)
    {config : FlowConfig} {instances : ℕ} {result : Except FlowCreationError FlowId}
    (h : c.spawnFlowWithInstances config instances = some (result, c')) :
    c'.flows.lookup flowId = some entry := by
  unfold spawnFlowWithInstances at h
  split at h
  · cases h
    exact hlive
  · dsimp only at h
    split at h
    · cases h
      exact hlive
    · obtain ⟨streams, -, heq⟩ := Option.map_eq_some_iff.mp h
      cases heq
      exact lookup_register htracked hlive config _

theorem lookup_createFlow (htracked : Tracked c) (hlive : c.flows.lookup flowId = some entry)
    {config : FlowConfig} {result : Except FlowCreationError FlowId}
    (h : c.createFlow config = some (result, c')) : c'.flows.lookup flowId = some entry := by
  unfold createFlow at h
  split at h
  · cases h
    exact hlive
  · obtain ⟨streams, -, heq⟩ := Option.map_eq_some_iff.mp h
    cases heq
    exact lookup_register htracked hlive config _

/-- A command reaches the flow that it names, and no other. -/
theorem lookup_handleCommand (htracked : Tracked c) (hlive : c.flows.lookup flowId = some entry)
    {command : ReactorCommand} {reply : ReactorReply}
    (h : c.handleCommand command = some (reply, c')) (order : List FlowId) (hash : HashOrder) :
    c'.flows.lookup flowId = some (entry.act flowId (.command command order hash)) := by
  cases command with
  | createFlow config =>
      simp only [handleCommand] at h
      split at h
      · cases h
        exact hlive
      · obtain ⟨⟨result, c₁⟩, hcreate, heq⟩ := Option.map_eq_some_iff.mp h
        cases heq
        exact lookup_createFlow htracked hlive hcreate
  | spawnFlow config instances =>
      simp only [handleCommand] at h
      split at h
      · cases h
        exact hlive
      · obtain ⟨⟨result, c₁⟩, hspawn, heq⟩ := Option.map_eq_some_iff.mp h
        cases heq
        exact lookup_spawnFlow htracked hlive hspawn
  | cancelFlow other reason =>
      cases h
      by_cases hid : other = flowId
      · subst hid
        have hact : entry.act other (.command (.cancelFlow other reason) order hash) =
            cancelEntry reason entry := if_pos (decide_eq_true rfl)
        rw [hact]
        simp only [hlive]
        show (c.flows.modify other _).lookup other = _
        rw [KeyMap.lookup_modify, if_pos rfl, hlive, Option.map_some]
      · have hact : entry.act flowId (.command (.cancelFlow other reason) order hash) = entry :=
          if_neg (by simpa [Action.concerns] using hid)
        rw [hact]
        split
        · show (c.flows.modify other _).lookup flowId = _
          rw [KeyMap.lookup_modify, if_neg (Ne.symm hid), hlive]
        · exact hlive
  | queryFlowState | queryFlowOutcome | listFlows | updatePriority =>
      cases h
      exact hlive

/-- Replacing the task of one flow. -/
theorem lookup_withTask (hlive : c.flows.lookup flowId = some entry) (other : FlowId)
    (task : FlowTask) : (c.withTask other task).flows.lookup flowId =
      some (if other = flowId then { entry with task := task } else entry) := by
  show (c.flows.modify other _).lookup flowId = _
  rw [KeyMap.lookup_modify]
  by_cases hid : other = flowId
  · rw [if_pos hid.symm, if_pos hid, hid, hlive, Option.map_some]
  · rw [if_neg (Ne.symm hid), if_neg hid, hlive]

theorem lookup_beginTask (hlive : c.flows.lookup flowId = some entry) (other : FlowId)
    (now wallClock : ℕ) : (c.beginTask other now wallClock).flows.lookup flowId =
      some (entry.act flowId (.beginTask other now wallClock)) := by
  unfold beginTask
  by_cases hid : other = flowId
  · subst hid
    have hact : entry.act other (.beginTask other now wallClock) =
        { entry with task := entry.task.begin now wallClock } := if_pos (decide_eq_true rfl)
    rw [hact]
    obtain ⟨handle, task, componentIds⟩ := entry
    cases task with
    | unstarted flowId' config streams cancellation =>
        simp only [hlive, lookup_withTask hlive, if_pos]
        rfl
    | driver | panicked | stub => simp only [hlive, FlowTask.begin]
  · have hact : entry.act flowId (.beginTask other now wallClock) = entry :=
      if_neg (by simpa [Action.concerns] using hid)
    rw [hact]
    split
    · rw [lookup_withTask hlive, if_neg hid]
    · exact hlive

theorem lookup_roundOf (hlive : c.flows.lookup flowId = some entry) (other : FlowId) (r : Round) :
    (c.roundOf other r).flows.lookup flowId = some (entry.act flowId (.round other r)) := by
  unfold roundOf
  by_cases hid : other = flowId
  · subst hid
    have hact : entry.act other (.round other r) = { entry with task := entry.task.round r } :=
      if_pos (decide_eq_true rfl)
    rw [hact]
    obtain ⟨handle, task, componentIds⟩ := entry
    cases task with
    | driver d =>
        simp only [hlive]
        exact (lookup_withTask hlive _ _).trans (congrArg some (if_pos rfl))
    | unstarted | panicked | stub => simp only [hlive, FlowTask.round]
  · have hact : entry.act flowId (.round other r) = entry :=
      if_neg (by simpa [Action.concerns] using hid)
    rw [hact]
    split
    · exact (lookup_withTask hlive _ _).trans (congrArg some (if_neg hid))
    · exact hlive

theorem lookup_panicTask (hlive : c.flows.lookup flowId = some entry) (other : FlowId)
    (message : String) : (c.panicTask other message).flows.lookup flowId =
      some (entry.act flowId (.panic other message)) := by
  unfold panicTask
  by_cases hid : other = flowId
  · subst hid
    have hact : entry.act other (.panic other message) =
        { entry with task := entry.task.panic message } := if_pos (decide_eq_true rfl)
    rw [hact]
    obtain ⟨handle, task, componentIds⟩ := entry
    cases task with
    | driver d =>
        simp only [hlive, FlowTask.panic]
        split
        · exact hlive
        · exact (lookup_withTask hlive _ _).trans (congrArg some (if_pos rfl))
    | unstarted | panicked | stub => simp only [hlive, FlowTask.panic]
  · have hact : entry.act flowId (.panic other message) = entry :=
      if_neg (by simpa [Action.concerns] using hid)
    rw [hact]
    split
    · split
      · exact hlive
      · rw [lookup_withTask hlive, if_neg hid]
    · exact hlive

/-- **One action**: it acts on the task of a live flow if it concerns the flow, and a pass may
then take the flow out. -/
theorem step_holds (htracked : Tracked c) (hlive : c.flows.lookup flowId = some entry)
    {action : Action} (hstep : c.step action = some c') :
    c'.Holds flowId (entry.act flowId action) := by
  cases action with
  | command command order hash =>
      obtain ⟨⟨reply, c₁⟩, hcommand, rfl⟩ := Option.map_eq_some_iff.mp hstep
      have hlive₁ := lookup_handleCommand htracked hlive hcommand order hash
      exact reapCompletedFlows_holds (.inl hlive₁) order hash
  | beginShutdown =>
      cases hstep
      refine .inl ?_
      show (c.flows.mapValues (cancelEntry .operatorRequest)).lookup flowId = _
      rw [KeyMap.lookup_mapValues, hlive]
      rfl
  | pass order hash =>
      cases hstep
      exact reapCompletedFlows_holds (.inl hlive) order hash
  | beginTask other now wallClock =>
      cases hstep
      exact .inl (lookup_beginTask hlive other now wallClock)
  | round other r =>
      cases hstep
      exact .inl (lookup_roundOf hlive other r)
  | panic other message =>
      cases hstep
      exact .inl (lookup_panicTask hlive other message)
  | resource op =>
      cases hstep
      exact .inl hlive

/-! ## Any number of actions -/

/-- A flow is live with the task that its own actions make of it, or it has been reaped with the
task that they had made of it by then. -/
theorem run_holds (htracked : Tracked c) (hlive : c.flows.lookup flowId = some entry)
    {actions : List Action} (hrun : c.run actions = some c') :
    c'.flows.lookup flowId = some { entry with task := entry.task.after flowId actions } ∨
      ∃ before later, actions = before ++ later ∧
        .reaped flowId (entry.task.after flowId before) ∈ c'.log := by
  induction actions generalizing c entry with
  | nil =>
      cases hrun
      exact .inl hlive
  | cons action actions ih =>
      obtain ⟨c₁, hstep, hrun⟩ := Option.bind_eq_some_iff.mp hrun
      have hact : ∀ before, (entry.act flowId action).task.after flowId before =
          entry.task.after flowId (action :: before) := by
        intro before
        rw [FlowTask.after_cons, FlowEntry.act]
        split <;> rfl
      have hentry : { entry with task := entry.task.after flowId (action :: actions) } =
          { entry.act flowId action with
            task := (entry.act flowId action).task.after flowId actions } := by
        rw [hact, FlowEntry.act]
        split <;> rfl
      rcases step_holds htracked hlive hstep with hlive₁ | ⟨-, hreaped⟩
      · rw [hentry]
        rcases ih (htracked.changes (step_changes hstep)) hlive₁ hrun with
          h | ⟨before, later, rfl, hreaped⟩
        · exact .inl h
        · exact .inr ⟨action :: before, later, rfl, hact before ▸ hreaped⟩
      · -- the action has taken the flow out, and the record keeps it
        refine .inr ⟨[action], actions, rfl, ?_⟩
        rw [← hact []]
        exact (run_log_grows hrun).subset hreaped

end Coordinator

/-- **Flows are independent.**  From any state of a run on, whatever the other flows do: a live
flow goes on with the task that its own actions make of it, until it is reaped with that task. -/
theorem flows_independent (ρ : CoordinatorRun) {c : Coordinator} {rest : List Action}
    (hreaches : ρ.Reaches c rest) {flowId : FlowId} {entry : FlowEntry}
    (hlive : c.flows.lookup flowId = some entry) :
    ρ.final.flows.lookup flowId = some { entry with task := entry.task.after flowId rest } ∨
      ∃ before later, rest = before ++ later ∧
        .reaped flowId (entry.task.after flowId before) ∈ ρ.final.log := by
  obtain ⟨start, hactions, hrun⟩ := hreaches
  have hreached := ρ.reached
  rw [hactions, run_append, hrun] at hreached
  exact run_holds ((tracked_new ρ.resources).run hrun) hlive hreached

/-! ## Two flows -/

/-- Two flows are spawned. -/
noncomputable def twoSpawns : List Action :=
  List.replicate 2 (.command (.spawnFlow (smallConfig [.source, .sink] [(0, 1)] 1) 2) [] default)

/-- The first is cancelled and begins after the second. -/
noncomputable def interleaved : List Action :=
  [.beginTask ⟨2⟩ 0 0, .command (.cancelFlow ⟨1⟩ .operatorRequest) [] default, .beginTask ⟨1⟩ 0 0]

noncomputable def sideBySideRun : CoordinatorRun where
  resources := bareManager
  actions := twoSpawns ++ interleaved
  final := ((Coordinator.new bareManager).run (twoSpawns ++ interleaved)).get (by decide)
  reached := (Option.some_get _).symm

/-- The two flows as they are spawned. -/
noncomputable def spawned : Coordinator :=
  ((Coordinator.new bareManager).run twoSpawns).get (by decide)

/-- The second flow as it is spawned. -/
noncomputable def secondEntry : FlowEntry := (spawned.flows.lookup ⟨2⟩).get (by decide)

/-- The second flow does not notice that the first is cancelled. -/
theorem flows_independent_sideBySide :
    sideBySideRun.final.flows.lookup ⟨2⟩ = some { secondEntry with
        task := secondEntry.task.after ⟨2⟩ interleaved } ∨
      ∃ before later, interleaved = before ++ later ∧
        .reaped ⟨2⟩ (secondEntry.task.after ⟨2⟩ before) ∈ sideBySideRun.final.log :=
  flows_independent sideBySideRun ⟨twoSpawns, rfl, (Option.some_get _).symm⟩
    (Option.some_get _).symm

end Torvyn.Reactor
