/-
# The tasks of the coordinator

What an action can do to the flows, said once.  A task *advances*: it is cancelled, begins, takes
a round or panics.  The coordinator *changes*: a flow is registered, a task advances, all tasks
are cancelled, a finished flow is reaped.  Every run is a sequence of such changes, and
`Tracked` is what they preserve: each task stands for the calls of `cancel` on its token, and
what is kept of a flow is what its task ended with.
-/
import Torvyn.Reactor.Coordinator

namespace Torvyn.Reactor

/-! ## How a task advances -/

/-- The driver of a task that has begun. -/
def FlowTask.driver? : FlowTask → Option FlowDriver
  | .driver d => some d
  | .panicked d _ => some d
  | _ => none

/-- Whether the task waits for its first run. -/
def FlowTask.isUnstarted : FlowTask → Bool
  | .unstarted _ _ _ _ => true
  | _ => false

/-- What can happen to a task, with the calls of `cancel` on its token; it can begin only where
this is permitted. -/
inductive Advance (begins : Prop) : FlowTask → List CancellationReason → FlowTask → Prop
  | cancelled (task : FlowTask) (reason : CancellationReason) :
      Advance begins task [reason] (task.cancel reason)
  | begun (hbegins : begins) (flowId : FlowId) (config : FlowConfig) (streams : List StreamState)
      (cancellation : FlowCancellation) (now wallClock : ℕ) :
      Advance begins (.unstarted flowId config streams cancellation) []
        (.driver (((FlowDriver.new flowId config streams now).enterRunning now
          wallClock).withCancellation cancellation))
  | round (d : FlowDriver) (r : Round) :
      Advance begins (.driver d) (d.cancelCalls r) (.driver (d.step r))
  | panicked (d : FlowDriver) (message : String) (hlive : d.state.isTerminal = false) :
      Advance begins (.driver d) [] (.panicked d message)

/-- What holds of a task whose token has been cancelled by the given calls. -/
structure FlowTask.Sound (task : FlowTask) (calls : List CancellationReason) : Prop where
  token : task.cancellation = FlowCancellation.new.cancelAll calls
  lifecycle : ∀ d, task.driver? = some d → d.Lifecycle

theorem FlowTask.cancellation_cancel (task : FlowTask) (reason : CancellationReason) :
    (task.cancel reason).cancellation = task.cancellation.cancel reason := by
  cases task <;> rfl

theorem Advance.sound {begins : Prop} {task task' : FlowTask}
    {calls more : List CancellationReason} (h : Advance begins task more task') (hsound : task.Sound calls) : task'.Sound (calls ++ more) := by
  cases h with
  | cancelled _ reason =>
      refine ⟨?_, fun d hd => ?_⟩
      · rw [FlowTask.cancellation_cancel, hsound.token, FlowCancellation.cancelAll_append]
        rfl
      · cases task with
        | unstarted | stub => cases hd
        | driver d₀ | panicked d₀ _ =>
            obtain rfl := Option.some.inj hd
            exact (hsound.lifecycle d₀ rfl).cancel reason
  | begun hbegins flowId config streams cancellation now wallClock =>
      rw [List.append_nil]
      refine ⟨hsound.token, fun d hd => ?_⟩
      obtain rfl := Option.some.inj hd
      have hstart := FlowDriver.lifecycle_enterRunning flowId config streams now wallClock
      exact ⟨hstart.started, hstart.follows, hstart.terminal_once, fun h => absurd rfl h,
        fun h => by cases h⟩
  | round d r =>
      refine ⟨?_, fun d' hd => ?_⟩
      · have htoken : d.cancellation = _ := hsound.token
        rw [FlowCancellation.cancelAll_append, ← htoken]
        exact d.cancellation_step r
      · obtain rfl := Option.some.inj hd
        exact (hsound.lifecycle d rfl).step r
  | panicked d message =>
      rw [List.append_nil]
      exact ⟨hsound.token, hsound.lifecycle⟩

/-! ## How the coordinator changes -/

namespace Coordinator

/-- The flow as it is entered, before its task has run. -/
inductive Fresh (flowId : FlowId) (config : FlowConfig) : FlowTask → Prop
  | unstarted (streams : List StreamState) :
      Fresh flowId config (.unstarted flowId config streams .new)
  | stub : Fresh flowId config (.stub .new)

/-- Take a finished flow out, and keep its outcome. -/
def take (c : Coordinator) (flowId : FlowId) (task : FlowTask) (outcome : FlowOutcome) :
    Coordinator :=
  ({ c with flows := c.flows.erase flowId }.record [.reaped flowId task]).retainOutcome flowId
    outcome

/-- One change of the coordinator, in which a task begins only where this is permitted. -/
inductive Change (begins : Prop) (c : Coordinator) : Coordinator → Prop
  | registered {config : FlowConfig} {task : FlowTask}
      (hfresh : Fresh ⟨c.nextFlowId⟩ config task) : Change begins c (c.register config task)
  | advanced {flowId : FlowId} {entry : FlowEntry} {task : FlowTask}
      {calls : List CancellationReason} (hlive : c.flows.lookup flowId = some entry)
      (hadvance : Advance begins entry.task calls task) :
      Change begins c ((c.withTask flowId task).record (calls.map (.cancelCalled flowId)))
  | shutdown : Change begins c c.beginShutdown
  | taken {flowId : FlowId} {entry : FlowEntry} {result : Except String FlowState}
      (hlive : c.flows.lookup flowId = some entry) (hresult : entry.task.result = some result) :
      Change begins c (c.take flowId entry.task (entry.task.outcomeOf result))
  | resources (resources : ResourceManager) : Change begins c { c with resources := resources }

/-- Changes, one after another. -/
abbrev Changes (begins : Prop) : Coordinator → Coordinator → Prop :=
  Relation.ReflTransGen (Change begins)

variable {begins : Prop}

theorem reapFlow_changes (hash : HashOrder) (c : Coordinator) (flowId : FlowId) :
    Changes begins c (c.reapFlow hash flowId) := by
  unfold reapFlow
  cases hlive : c.flows.lookup flowId with
  | none => exact .refl
  | some entry =>
      simp only
      cases hresult : entry.task.result with
      | none => exact .refl
      | some result =>
          exact (Relation.ReflTransGen.single (Change.taken hlive hresult)).tail
            (Change.resources _)

theorem reapCompletedFlows_changes (c : Coordinator) (order : List FlowId) (hash : HashOrder) :
    Changes begins c (c.reapCompletedFlows order hash) := by
  have hfold : ∀ (ids : List FlowId) (c : Coordinator), Changes begins c (ids.foldl (reapFlow hash) c) := by
    intro ids
    induction ids with
    | nil => exact fun c => .refl
    | cons flowId ids ih => exact fun c => (reapFlow_changes hash c flowId).trans (ih _)
  exact hfold _ c

theorem spawnFlowWithInstances_changes {c c' : Coordinator} {config : FlowConfig} {instances : ℕ}
    {result : Except FlowCreationError FlowId}
    (h : c.spawnFlowWithInstances config instances = some (result, c')) : Changes begins c c' := by
  unfold spawnFlowWithInstances at h
  cases hvalid : config.topology.validate with
  | error e =>
      rw [hvalid] at h
      cases h
      exact .refl
  | ok u =>
      rw [hvalid] at h
      simp only at h
      by_cases hcount : instances ≠ config.topology.stages.length
      · rw [if_pos hcount] at h
        cases h
        exact .refl
      · rw [if_neg hcount] at h
        obtain ⟨streams, -, heq⟩ := Option.map_eq_some_iff.mp h
        cases heq
        exact (Relation.ReflTransGen.single (Change.resources _)).tail
          (Change.registered (.unstarted streams))

theorem createFlow_changes {c c' : Coordinator} {config : FlowConfig}
    {result : Except FlowCreationError FlowId} (h : c.createFlow config = some (result, c')) :
    Changes begins c c' := by
  unfold createFlow at h
  cases hvalid : config.topology.validate with
  | error e =>
      rw [hvalid] at h
      cases h
      exact .refl
  | ok u =>
      rw [hvalid] at h
      obtain ⟨-, -, heq⟩ := Option.map_eq_some_iff.mp h
      cases heq
      exact .single (Change.registered .stub)

/-- Calling `cancel` from outside advances the task. -/
theorem cancelFlow_changes (c : Coordinator) (flowId : FlowId) (reason : CancellationReason) :
    Changes begins c (c.cancelFlow flowId reason).2 := by
  unfold cancelFlow
  cases hlive : c.flows.lookup flowId with
  | none => exact .refl
  | some entry =>
      have hmodify : c.flows.modify flowId (cancelEntry reason) =
          c.flows.modify flowId fun entry' => { entry' with task := entry.task.cancel reason } := by
        rw [KeyMap.modify_of_lookup hlive, KeyMap.modify_of_lookup hlive]
        rfl
      have hadvance : Advance begins entry.task [reason] _ := .cancelled entry.task reason
      simp only [hmodify]
      exact .single (.advanced hlive hadvance)

theorem handleCommand_changes {c c' : Coordinator} {command : ReactorCommand}
    {reply : ReactorReply} (h : c.handleCommand command = some (reply, c')) : Changes begins c c' := by
  cases command with
  | createFlow config =>
      simp only [handleCommand] at h
      split at h
      · cases h
        exact .refl
      · obtain ⟨⟨result, c₁⟩, hcreate, heq⟩ := Option.map_eq_some_iff.mp h
        cases heq
        exact createFlow_changes hcreate
  | spawnFlow config instances =>
      simp only [handleCommand] at h
      split at h
      · cases h
        exact .refl
      · obtain ⟨⟨result, c₁⟩, hspawn, heq⟩ := Option.map_eq_some_iff.mp h
        cases heq
        exact spawnFlowWithInstances_changes hspawn
  | cancelFlow flowId reason =>
      cases h
      exact c.cancelFlow_changes flowId reason
  | queryFlowState | queryFlowOutcome | listFlows | updatePriority =>
      cases h
      exact .refl

/-- The action lets a task begin. -/
def Begins (c : Coordinator) : Action → Prop
  | .beginTask flowId _ _ => ∃ entry, c.flows.lookup flowId = some entry ∧ entry.task.isUnstarted
  | _ => False

/-- An advance without a call of `cancel`. -/
theorem Change.quiet {c : Coordinator} {flowId : FlowId} {entry : FlowEntry} {task : FlowTask}
    (hlive : c.flows.lookup flowId = some entry) (hadvance : Advance begins entry.task [] task) :
    Change begins c (c.withTask flowId task) := by
  have hchange := Change.advanced hlive hadvance
  simpa only [record, List.map_nil, List.append_nil] using hchange

theorem beginTask_changes (c : Coordinator) (flowId : FlowId) (now wallClock : ℕ) :
    Changes (c.Begins (.beginTask flowId now wallClock)) c
      (c.beginTask flowId now wallClock) := by
  unfold beginTask
  split
  · rename_i handle flowId' config streams cancellation componentIds hlive
    exact .single (.quiet hlive (.begun ⟨_, hlive, rfl⟩ flowId' config streams cancellation now
      wallClock))
  · exact .refl

theorem roundOf_changes (c : Coordinator) (flowId : FlowId) (r : Round) :
    Changes begins c (c.roundOf flowId r) := by
  unfold roundOf
  split
  · rename_i handle d componentIds hlive
    exact .single (.advanced hlive (.round d r))
  · exact .refl

theorem panicTask_changes (c : Coordinator) (flowId : FlowId) (message : String) :
    Changes begins c (c.panicTask flowId message) := by
  unfold panicTask
  split
  · rename_i handle d componentIds hlive
    split
    · exact .refl
    · rename_i hterminal
      exact .single (.quiet hlive (.panicked d message (Bool.not_eq_true _ ▸ hterminal)))
  · exact .refl

/-- **What an action can do.** -/
theorem step_changes {c c' : Coordinator} {action : Action} (h : c.step action = some c') :
    Changes (c.Begins action) c c' := by
  cases action with
  | command command order hash =>
      obtain ⟨⟨reply, c₁⟩, hcommand, rfl⟩ := Option.map_eq_some_iff.mp h
      exact (handleCommand_changes hcommand).trans (c₁.reapCompletedFlows_changes order hash)
  | beginShutdown =>
      cases h
      exact .single .shutdown
  | pass order hash =>
      cases h
      exact c.reapCompletedFlows_changes order hash
  | beginTask flowId now wallClock =>
      cases h
      exact c.beginTask_changes flowId now wallClock
  | round flowId r =>
      cases h
      exact c.roundOf_changes flowId r
  | panic flowId message =>
      cases h
      exact c.panicTask_changes flowId message
  | resource op =>
      cases h
      exact .single (.resources _)

end Coordinator

/-! ## What is recorded of a flow -/

/-- The call of `cancel` on the token of a flow that is recorded. -/
def CoordinatorEvent.callOf? (flowId : FlowId) : CoordinatorEvent → Option CancellationReason
  | .cancelCalled flowId' reason => if flowId' = flowId then some reason else none
  | _ => none

/-- The calls of `cancel` on the token of a flow. -/
def callsOf (flowId : FlowId) (log : List CoordinatorEvent) : List CancellationReason :=
  log.filterMap (CoordinatorEvent.callOf? flowId)

theorem callsOf_append (flowId : FlowId) (log more : List CoordinatorEvent) :
    callsOf flowId (log ++ more) = callsOf flowId log ++ callsOf flowId more :=
  List.filterMap_append

theorem callsOf_eq_nil {flowId : FlowId} {log : List CoordinatorEvent}
    (h : ∀ reason, .cancelCalled flowId reason ∉ log) : callsOf flowId log = [] := by
  refine List.filterMap_eq_nil_iff.mpr fun event hevent => ?_
  cases event with
  | cancelCalled flowId' reason =>
      refine if_neg ?_
      rintro rfl
      exact h reason hevent
  | reaped | evicted => rfl

theorem callsOf_map (flowId flowId' : FlowId) (calls : List CancellationReason) :
    callsOf flowId (calls.map (.cancelCalled flowId')) = if flowId' = flowId then calls else [] := by
  rw [callsOf, List.filterMap_map]
  by_cases h : flowId' = flowId
  · rw [if_pos h]
    have hsome : CoordinatorEvent.callOf? flowId ∘ CoordinatorEvent.cancelCalled flowId' = some := by
      funext reason
      exact if_pos h
    rw [hsome, List.filterMap_some]
  · rw [if_neg h]
    exact List.filterMap_eq_nil_iff.mpr fun reason _ => if_neg h

/-- One call for each of some distinct flows. -/
theorem callsOf_each (flowId : FlowId) {ids : List FlowId} (hnodup : ids.Nodup)
    (reason : CancellationReason) :
    callsOf flowId (ids.map fun flowId => .cancelCalled flowId reason) =
      if flowId ∈ ids then [reason] else [] := by
  induction ids with
  | nil => rfl
  | cons flowId' ids ih =>
      obtain ⟨hnotMem, hnodup'⟩ := List.nodup_cons.mp hnodup
      have hcons : callsOf flowId ((flowId' :: ids).map fun flowId => .cancelCalled flowId reason) =
          (if flowId' = flowId then [reason] else []) ++
            callsOf flowId (ids.map fun flowId => .cancelCalled flowId reason) := by
        have hone := callsOf_map flowId flowId' [reason]
        rw [← hone, ← callsOf_append]
        rfl
      rw [hcons, ih hnodup']
      by_cases h : flowId' = flowId
      · subst h
        simp [hnotMem]
      · have hne : flowId ≠ flowId' := fun heq => h heq.symm
        simp [h, hne]

namespace Coordinator

/-- The coordinator has a task for the flow, or has had one and keeps it on record. -/
def Known (c : Coordinator) (flowId : FlowId) (task : FlowTask) : Prop :=
  (∃ entry, c.flows.lookup flowId = some entry ∧ entry.task = task) ∨
    .reaped flowId task ∈ c.log

/-- What every reachable state of the coordinator satisfies. -/
structure Tracked (c : Coordinator) : Prop where
  known_lt : ∀ {flowId task}, c.Known flowId task → flowId.id < c.nextFlowId
  called_lt : ∀ {flowId reason}, .cancelCalled flowId reason ∈ c.log → flowId.id < c.nextFlowId
  gone : ∀ {flowId task}, .reaped flowId task ∈ c.log → c.flows.lookup flowId = none
  once : ∀ {flowId task task'}, .reaped flowId task ∈ c.log → .reaped flowId task' ∈ c.log →
    task = task'
  sound : ∀ {flowId task}, c.Known flowId task → task.Sound (callsOf flowId c.log)
  finished : ∀ {flowId task}, .reaped flowId task ∈ c.log → ∃ result, task.result = some result
  kept : ∀ {flowId outcome}, c.outcomes.lookup flowId = some outcome →
    ∃ task result, .reaped flowId task ∈ c.log ∧ task.result = some result ∧
      outcome = task.outcomeOf result

/-! ### Evicting and taking out -/

theorem evict_frame (n : ℕ) (c : Coordinator) :
    ∃ ids : List FlowId, (evict n c).log = c.log ++ ids.map .evicted ∧
      (evict n c).flows = c.flows ∧ (evict n c).nextFlowId = c.nextFlowId ∧
      ∀ flowId outcome, (evict n c).outcomes.lookup flowId = some outcome →
        c.outcomes.lookup flowId = some outcome := by
  induction n generalizing c with
  | zero => exact ⟨[], (List.append_nil _).symm, rfl, rfl, fun _ _ h => h⟩
  | succ n ih =>
      unfold evict
      split
      · cases hleast : leastKey c.outcomes with
        | none => exact ⟨[], (List.append_nil _).symm, rfl, rfl, fun _ _ h => h⟩
        | some oldest =>
            obtain ⟨ids, hlog, hflows, hnext, hsub⟩ :=
              ih ({ c with outcomes := c.outcomes.erase oldest }.record [.evicted oldest])
            refine ⟨oldest :: ids, ?_, hflows, hnext, fun flowId outcome hlookup => ?_⟩
            · exact hlog.trans (List.append_assoc _ _ _)
            · have herase : (c.outcomes.erase oldest).lookup flowId = some outcome :=
                hsub flowId outcome hlookup
              by_cases h : flowId = oldest
              · rw [h, AList.lookup_erase] at herase
                cases herase
              · rwa [AList.lookup_erase_ne h] at herase
      · exact ⟨[], (List.append_nil _).symm, rfl, rfl, fun _ _ h => h⟩

theorem take_frame (c : Coordinator) (flowId : FlowId) (task : FlowTask) (outcome : FlowOutcome) :
    ∃ ids : List FlowId,
      (c.take flowId task outcome).log = c.log ++ .reaped flowId task :: ids.map .evicted ∧
      (c.take flowId task outcome).flows = c.flows.erase flowId ∧
      (c.take flowId task outcome).nextFlowId = c.nextFlowId ∧
      ∀ flowId' outcome', (c.take flowId task outcome).outcomes.lookup flowId' = some outcome' →
        flowId' = flowId ∧ outcome' = outcome ∨ c.outcomes.lookup flowId' = some outcome' := by
  obtain ⟨ids, hlog, hflows, hnext, hsub⟩ :=
    evict_frame (c.outcomes.insert flowId outcome).keys.length
      { { c with flows := c.flows.erase flowId }.record [.reaped flowId task] with
        outcomes := c.outcomes.insert flowId outcome }
  refine ⟨ids, hlog.trans (List.append_assoc _ _ _), hflows, hnext,
    fun flowId' outcome' hlookup => ?_⟩
  have hinsert : (c.outcomes.insert flowId outcome).lookup flowId' = some outcome' :=
    hsub flowId' outcome' hlookup
  by_cases h : flowId' = flowId
  · rw [h, AList.lookup_insert] at hinsert
    exact .inl ⟨h, (Option.some.inj hinsert).symm⟩
  · rw [AList.lookup_insert_ne h] at hinsert
    exact .inr hinsert

/-! ### The invariant -/

theorem tracked_new (resources : ResourceManager) : Tracked (new resources) where
  known_lt := by
    rintro flowId task (⟨entry, hlive, -⟩ | hreaped)
    · cases hlive
    · cases hreaped
  called_lt := fun h => by cases h
  gone := fun h => by cases h
  once := fun h => by cases h
  sound := by
    rintro flowId task (⟨entry, hlive, -⟩ | hreaped)
    · cases hlive
    · cases hreaped
  finished := fun h => by cases h
  kept := fun h => by cases h

/-- What is reaped is not called for by a list of calls. -/
theorem mem_log_of_mem_append {log : List CoordinatorEvent} {events : List CoordinatorEvent}
    {flowId : FlowId} {task : FlowTask} (h : .reaped flowId task ∈ log ++ events)
    (hcalls : ∀ event ∈ events, ∃ flowId reason, event = .cancelCalled flowId reason) :
    .reaped flowId task ∈ log := by
  rcases List.mem_append.mp h with h | h
  · exact h
  · obtain ⟨_, _, heq⟩ := hcalls _ h
    cases heq

variable {c : Coordinator} {begins : Prop}

theorem Tracked.register (h : Tracked c) {config : FlowConfig} {task : FlowTask}
    (hfresh : Fresh ⟨c.nextFlowId⟩ config task) : Tracked (c.register config task) := by
  have hknown : ∀ {flowId task'}, (c.register config task).Known flowId task' →
      flowId = ⟨c.nextFlowId⟩ ∧ task' = task ∨ c.Known flowId task' := by
    rintro flowId task' (⟨entry, hlive, rfl⟩ | hreaped)
    · have hlive : (c.flows.insert _ _).lookup flowId = some entry := hlive
      by_cases hid : flowId = ⟨c.nextFlowId⟩
      · rw [hid, AList.lookup_insert] at hlive
        obtain rfl := Option.some.inj hlive
        exact .inl ⟨hid, rfl⟩
      · rw [AList.lookup_insert_ne hid] at hlive
        exact .inr (.inl ⟨entry, hlive, rfl⟩)
    · exact .inr (.inr hreaped)
  refine ⟨fun {flowId task'} hk => ?_, fun hc => Nat.lt_succ_of_lt (h.called_lt hc),
    fun {flowId task'} hreaped => ?_, h.once, fun {flowId task'} hk => ?_, h.finished, h.kept⟩
  · rcases hknown hk with ⟨rfl, -⟩ | hk
    · exact Nat.lt_succ_self _
    · exact Nat.lt_succ_of_lt (h.known_lt hk)
  · have hne : flowId ≠ ⟨c.nextFlowId⟩ := by
      rintro rfl
      exact absurd (h.known_lt (.inr hreaped)) (Nat.lt_irrefl _)
    exact (AList.lookup_insert_ne hne).trans (h.gone hreaped)
  · rcases hknown hk with ⟨rfl, rfl⟩ | hk
    · have hnone : callsOf ⟨c.nextFlowId⟩ c.log = [] :=
        callsOf_eq_nil fun reason hmem => absurd (h.called_lt hmem) (Nat.lt_irrefl _)
      have hlog : (c.register config task').log = c.log := rfl
      rw [hlog, hnone]
      cases hfresh with
      | unstarted | stub => exact ⟨rfl, fun d hd => by cases hd⟩
    · exact h.sound hk

theorem Tracked.advance (h : Tracked c) {flowId : FlowId} {entry : FlowEntry} {task : FlowTask}
    {calls : List CancellationReason} (hlive : c.flows.lookup flowId = some entry)
    (hadvance : Advance begins entry.task calls task) :
    Tracked ((c.withTask flowId task).record (calls.map (.cancelCalled flowId))) := by
  have hreapedOld : ∀ {flowId' task'},
      .reaped flowId' task' ∈ c.log ++ calls.map (CoordinatorEvent.cancelCalled flowId) →
      .reaped flowId' task' ∈ c.log := fun hmem => mem_log_of_mem_append hmem fun event hevent => by
    obtain ⟨reason, -, rfl⟩ := List.mem_map.mp hevent
    exact ⟨flowId, reason, rfl⟩
  have hlookup : ∀ flowId', ((c.withTask flowId task).record
      (calls.map (.cancelCalled flowId))).flows.lookup flowId' =
        if flowId' = flowId then some { entry with task := task } else c.flows.lookup flowId' := by
    intro flowId'
    refine (KeyMap.lookup_modify _ _ _ _).trans ?_
    rw [hlive]
    rfl
  have hcalls : ∀ flowId', callsOf flowId' (c.log ++ calls.map (.cancelCalled flowId)) =
      callsOf flowId' c.log ++ if flowId = flowId' then calls else [] := fun flowId' => by
    rw [callsOf_append, callsOf_map]
  refine ⟨?_, ?_, fun {flowId' task'} hreaped => ?_,
    fun hreaped hreaped' => h.once (hreapedOld hreaped) (hreapedOld hreaped'), ?_,
    fun hreaped => h.finished (hreapedOld hreaped), fun hkept => ?_⟩
  · rintro flowId' task' (⟨entry', hlive', -⟩ | hreaped)
    · rw [hlookup] at hlive'
      by_cases hid : flowId' = flowId
      · subst hid
        exact h.known_lt (.inl ⟨entry, hlive, rfl⟩)
      · rw [if_neg hid] at hlive'
        exact h.known_lt (.inl ⟨entry', hlive', rfl⟩)
    · exact h.known_lt (.inr (hreapedOld hreaped))
  · intro flowId' reason hmem
    rcases List.mem_append.mp hmem with hmem | hmem
    · exact h.called_lt hmem
    · obtain ⟨_, -, heq⟩ := List.mem_map.mp hmem
      cases heq
      exact h.known_lt (.inl ⟨entry, hlive, rfl⟩)
  · have hgone := h.gone (hreapedOld hreaped)
    rw [hlookup, if_neg, hgone]
    rintro rfl
    rw [hlive] at hgone
    cases hgone
  · rintro flowId' task' (⟨entry', hlive', rfl⟩ | hreaped)
    · rw [hlookup] at hlive'
      show entry'.task.Sound (callsOf flowId' (c.log ++ _))
      rw [hcalls]
      by_cases hid : flowId' = flowId
      · subst hid
        rw [if_pos rfl] at hlive' ⊢
        obtain rfl := Option.some.inj hlive'
        exact hadvance.sound (h.sound (.inl ⟨entry, hlive, rfl⟩))
      · rw [if_neg hid] at hlive'
        rw [if_neg (Ne.symm hid), List.append_nil]
        exact h.sound (.inl ⟨entry', hlive', rfl⟩)
    · have hreaped := hreapedOld hreaped
      show task'.Sound (callsOf flowId' (c.log ++ _))
      rw [hcalls, if_neg, List.append_nil]
      · exact h.sound (.inr hreaped)
      · rintro rfl
        have hgone := h.gone hreaped
        rw [hlive] at hgone
        cases hgone
  · obtain ⟨task', result, hreaped, hresult⟩ := h.kept hkept
    exact ⟨task', result, List.mem_append_left _ hreaped, hresult⟩

theorem Tracked.shutdown (h : Tracked c) : Tracked c.beginShutdown := by
  have hreapedOld : ∀ {flowId task}, .reaped flowId task ∈ c.beginShutdown.log →
      .reaped flowId task ∈ c.log := fun hmem => mem_log_of_mem_append hmem fun event hevent => by
    obtain ⟨flowId, -, rfl⟩ := List.mem_map.mp hevent
    exact ⟨flowId, _, rfl⟩
  have hlookup : ∀ flowId, c.beginShutdown.flows.lookup flowId =
      (c.flows.lookup flowId).map (cancelEntry .operatorRequest) :=
    fun flowId => KeyMap.lookup_mapValues _ _ _
  have hcalls : ∀ flowId, callsOf flowId c.beginShutdown.log = callsOf flowId c.log ++
      if flowId ∈ c.flows.keys then [.operatorRequest] else [] := fun flowId => by
    refine (callsOf_append _ _ _).trans ?_
    rw [callsOf_each flowId c.flows.keys_nodup]
  refine ⟨?_, ?_, fun {flowId task} hreaped => ?_,
    fun hreaped hreaped' => h.once (hreapedOld hreaped) (hreapedOld hreaped'), ?_,
    fun hreaped => h.finished (hreapedOld hreaped), fun hkept => ?_⟩
  · rintro flowId task (⟨entry, hlive, -⟩ | hreaped)
    · rw [hlookup] at hlive
      obtain ⟨entry₀, hlive₀, -⟩ := Option.map_eq_some_iff.mp hlive
      exact h.known_lt (.inl ⟨entry₀, hlive₀, rfl⟩)
    · exact h.known_lt (.inr (hreapedOld hreaped))
  · intro flowId reason hmem
    rcases List.mem_append.mp hmem with hmem | hmem
    · exact h.called_lt hmem
    · obtain ⟨flowId', hkey, heq⟩ := List.mem_map.mp hmem
      cases heq
      obtain ⟨entry, hlive⟩ := KeyMap.mem_iff_exists.mp (AList.mem_keys.mpr hkey)
      exact h.known_lt (.inl ⟨entry, hlive, rfl⟩)
  · rw [hlookup, h.gone (hreapedOld hreaped)]
    rfl
  · rintro flowId task (⟨entry, hlive, rfl⟩ | hreaped)
    · rw [hlookup] at hlive
      obtain ⟨entry₀, hlive₀, rfl⟩ := Option.map_eq_some_iff.mp hlive
      rw [hcalls, if_pos (AList.mem_keys.mp (KeyMap.mem_iff_exists.mpr ⟨entry₀, hlive₀⟩))]
      have hadvance : Advance False entry₀.task [.operatorRequest] _ :=
        .cancelled entry₀.task .operatorRequest
      exact hadvance.sound (h.sound (.inl ⟨entry₀, hlive₀, rfl⟩))
    · have hreaped := hreapedOld hreaped
      rw [hcalls, if_neg, List.append_nil]
      · exact h.sound (.inr hreaped)
      · intro hkey
        obtain ⟨entry, hlive⟩ := KeyMap.mem_iff_exists.mp (AList.mem_keys.mpr hkey)
        rw [h.gone hreaped] at hlive
        cases hlive
  · obtain ⟨task, result, hreaped, hresult⟩ := h.kept hkept
    exact ⟨task, result, List.mem_append_left _ hreaped, hresult⟩

theorem Tracked.take (h : Tracked c) {flowId : FlowId} {entry : FlowEntry}
    {result : Except String FlowState} (hlive : c.flows.lookup flowId = some entry)
    (hresult : entry.task.result = some result) :
    Tracked (c.take flowId entry.task (entry.task.outcomeOf result)) := by
  obtain ⟨ids, hlog, hflows, hnext, hkept⟩ :=
    c.take_frame flowId entry.task (entry.task.outcomeOf result)
  have hreaped : ∀ {flowId' task},
      .reaped flowId' task ∈ (c.take flowId entry.task (entry.task.outcomeOf result)).log ↔
        .reaped flowId' task ∈ c.log ∨ flowId' = flowId ∧ task = entry.task := by
    intro flowId' task
    rw [hlog, List.mem_append, List.mem_cons]
    simp
  have hcalls : ∀ flowId',
      callsOf flowId' (c.take flowId entry.task (entry.task.outcomeOf result)).log =
        callsOf flowId' c.log := by
    intro flowId'
    have hnone : callsOf flowId' (.reaped flowId entry.task :: ids.map .evicted) = [] :=
      callsOf_eq_nil fun reason hmem => by simp at hmem
    rw [hlog, callsOf_append, hnone, List.append_nil]
  have hstill : ∀ {flowId' entry'}, (c.flows.erase flowId).lookup flowId' = some entry' →
      c.flows.lookup flowId' = some entry' := by
    intro flowId' entry' hlookup
    by_cases hid : flowId' = flowId
    · rw [hid, AList.lookup_erase] at hlookup
      cases hlookup
    · rwa [AList.lookup_erase_ne hid] at hlookup
  have hknown : ∀ {flowId' task},
      (c.take flowId entry.task (entry.task.outcomeOf result)).Known flowId' task →
        c.Known flowId' task := by
    rintro flowId' task (⟨entry', hlive', rfl⟩ | hmem)
    · rw [hflows] at hlive'
      exact .inl ⟨entry', hstill hlive', rfl⟩
    · rcases hreaped.mp hmem with hold | ⟨rfl, rfl⟩
      · exact .inr hold
      · exact .inl ⟨entry, hlive, rfl⟩
  have hnotReaped : ∀ {task}, .reaped flowId task ∉ c.log := by
    intro task hmem
    rw [h.gone hmem] at hlive
    cases hlive
  refine ⟨fun hk => hnext ▸ h.known_lt (hknown hk), fun {flowId' reason} hmem => ?_,
    fun {flowId' task} hmem => ?_, fun {flowId' task task'} hmem hmem' => ?_, fun hk => ?_,
    fun {flowId' task} hmem => ?_, fun {flowId' outcome} hlookup => ?_⟩
  · rw [hlog] at hmem
    rw [hnext]
    simp only [List.mem_append, List.mem_cons, reduceCtorEq, List.mem_map, and_false,
      exists_false, or_false] at hmem
    exact h.called_lt hmem
  · rw [hflows]
    rcases hreaped.mp hmem with hold | ⟨rfl, -⟩
    · by_cases hid : flowId' = flowId
      · rw [hid]
        exact AList.lookup_erase _ _
      · rw [AList.lookup_erase_ne hid]
        exact h.gone hold
    · exact AList.lookup_erase _ _
  · rcases hreaped.mp hmem with hold | ⟨rfl, rfl⟩ <;> rcases hreaped.mp hmem' with hold' | ⟨hid, rfl⟩
    · exact h.once hold hold'
    · exact absurd (hid ▸ hold) hnotReaped
    · exact absurd hold' hnotReaped
    · rfl
  · rw [hcalls]
    exact h.sound (hknown hk)
  · rcases hreaped.mp hmem with hold | ⟨rfl, rfl⟩
    · exact h.finished hold
    · exact ⟨result, hresult⟩
  · rcases hkept flowId' outcome hlookup with ⟨rfl, rfl⟩ | hold
    · exact ⟨entry.task, result, hreaped.mpr (.inr ⟨rfl, rfl⟩), hresult, rfl⟩
    · obtain ⟨task, result', hmem, hresult'⟩ := h.kept hold
      exact ⟨task, result', hreaped.mpr (.inl hmem), hresult'⟩

theorem Tracked.change (h : Tracked c) {c' : Coordinator} (hchange : Change begins c c') : Tracked c' := by
  cases hchange with
  | registered hfresh => exact h.register hfresh
  | advanced hlive hadvance => exact h.advance hlive hadvance
  | shutdown => exact h.shutdown
  | taken hlive hresult => exact h.take hlive hresult
  | resources => exact ⟨h.known_lt, h.called_lt, h.gone, h.once, h.sound, h.finished, h.kept⟩

theorem Tracked.changes (h : Tracked c) {c' : Coordinator} (hchanges : Changes begins c c') :
    Tracked c' := by
  induction hchanges with
  | refl => exact h
  | tail _ hchange ih => exact ih.change hchange

theorem Tracked.run (h : Tracked c) {actions : List Action} {c' : Coordinator}
    (hrun : c.run actions = some c') : Tracked c' := by
  induction actions generalizing c with
  | nil =>
      cases hrun
      exact h
  | cons action actions ih =>
      obtain ⟨c₁, hstep, hrun⟩ := Option.bind_eq_some_iff.mp hrun
      exact ih (h.changes (step_changes hstep)) hrun

end Coordinator

/-- **Every run** of the coordinator. -/
theorem CoordinatorRun.tracked (ρ : CoordinatorRun) : ρ.final.Tracked :=
  (Coordinator.tracked_new ρ.resources).run ρ.reached

end Torvyn.Reactor
