/-
# The flows of a host

`TorvynHost` of `torvyn-host/src/host.rs` keeps a record of each flow that it has started, beside
the coordinator of the reactor.  Asked how a flow ended, it asks the reactor; where the reactor
has no answer it falls back on its own record, and takes a flow that it did not cancel itself for
completed.

A call of `cancel_flow` or `flow_outcome` consists of two steps, between which others may come:
the reactor is asked before the record is written, and after the record is read.  Once the task
of the coordinator is gone, the tasks of the flows go on without it.
-/
import Torvyn.Pipeline.Convert
import Torvyn.Reactor.Queries
import Torvyn.Reactor.Retention

namespace Torvyn.Host

open Reactor Reactor.Coordinator Pipeline

/-! ## The host -/

/-- The lifecycle state of the host itself. -/
inductive HostStatus where
  | ready
  | running
  | shuttingDown
  | stopped
  deriving DecidableEq, Repr

/-- One stage of a flow: its component under the name and role of the node. -/
structure FlowStage where
  componentId : ComponentId
  name : String
  role : ComponentRole

/-- What the host keeps of a flow. -/
structure FlowRecord where
  flowId : FlowId
  name : String
  state : FlowState
  stages : List FlowStage

/-- The errors of the host.  What is wrong with a pipeline is kept as it is. -/
inductive HostError where
  | internal (message : String)
  | config (message : String)
  | topology (flowName : String) (errors : List PipelineError)
  | instantiation (flowName : String) (reason : String)
  | registration (flowName : String) (error : FlowCreationError)
  | flowNotFound (flowId : FlowId)
  | reactor (detail : String)

/-- The host with its reactor.  The last two fields hold the calls under way: the flows that the
reactor has been told to cancel, and the flows asked about with the state in their records. -/
structure TorvynHost where
  flowDefs : KeyMap String FlowDef
  flows : KeyMap FlowId FlowRecord
  status : HostStatus
  reactor : Coordinator
  reactorAlive : Bool
  cancelling : List FlowId
  asking : List (FlowId × FlowState)

namespace TorvynHost

/-- A host with a fresh reactor. -/
def new (flowDefs : KeyMap String FlowDef) (resources : ResourceManager) : TorvynHost :=
  ⟨flowDefs, ∅, .ready, .new resources, true, [], []⟩

/-- Send a command to the reactor and wait for its reply; a pass over the flows follows.  There
is no reply where the task of the coordinator is gone or panics. -/
def send (h : TorvynHost) (command : ReactorCommand) (order : List FlowId) (hash : HashOrder) :
    Option ReactorReply × TorvynHost :=
  if h.reactorAlive then
    match h.reactor.handleCommand command with
    | some (reply, c) => (some reply, { h with reactor := c.reapCompletedFlows order hash })
    | none => (none, { h with reactorAlive := false })
  else (none, h)

/-! ## Starting a flow -/

/-- The record of a flow that has just been started. -/
def recordOf (flowId : FlowId) (flowName : String) (t : PipelineTopology) : FlowRecord where
  flowId := flowId
  name := flowName
  state := .running
  stages := t.nodes.zipIdx.map fun p => ⟨componentIdOf p.2, p.1.name, p.1.role⟩

/-- `start_flow`.  How the nodes are configured and whether all components can be instantiated
is read from outside. -/
def startFlow (h : TorvynHost) (flowName : String)
    (configure : String → NodeDef → Except (List PipelineError) String) (ports : PortOrder)
    (instantiated : Except String Unit) (order : List FlowId) (hash : HashOrder) :
    Except HostError FlowId × TorvynHost :=
  if h.status = .shuttingDown ∨ h.status = .stopped then
    (.error (.internal "Cannot start flow: host is shutting down"), h)
  else
    match h.flowDefs.lookup flowName with
    | none =>
        (.error (.config s!"No flow named '{flowName}' is defined in the configuration"), h)
    | some flowDef =>
        match flowDefToTopology configure ports flowName flowDef with
        | .error errors => (.error (.topology flowName errors), h)
        | .ok t =>
            match instantiated with
            | .error reason => (.error (.instantiation flowName reason), h)
            | .ok () =>
                match h.send (.spawnFlow (.defaultWithTopology (flowTopology t)) t.nodes.length)
                  order hash with
                | (some (.created (.ok flowId)), h') =>
                    (.ok flowId,
                      { h' with
                        flows := h'.flows.insert flowId (recordOf flowId flowName t)
                        status := .running })
                | (some (.created (.error e)), h') => (.error (.registration flowName e), h')
                | (_, h') =>
                    -- the reactor is gone, before the command or through it
                    (.error (.registration flowName
                      (if h.reactorAlive then .internal "coordinator dropped"
                        else .reactorShuttingDown)), h')

/-! ## Cancelling -/

/-- The first half of `cancel_flow`: the reactor cancels the flow. -/
def cancelFlow (h : TorvynHost) (flowId : FlowId) (order : List FlowId) (hash : HashOrder) :
    Except HostError Unit × TorvynHost :=
  if flowId ∈ h.flows then
    match h.send (.cancelFlow flowId .operatorRequest) order hash with
    | (some (.cancelled (.ok ())), h) => (.ok (), { h with cancelling := flowId :: h.cancelling })
    | (some (.cancelled (.error e)), h) => (.error (.reactor e), h)
    | (_, h) => (.error (.reactor "reactor shut down"), h)
  else (.error (.flowNotFound flowId), h)

/-- The second half: the record is updated. -/
def recordCancelled (h : TorvynHost) (flowId : FlowId) : TorvynHost :=
  if flowId ∈ h.cancelling then
    { h with
      cancelling := h.cancelling.erase flowId
      flows := h.flows.modify flowId fun record => { record with state := .cancelled } }
  else h

/-! ## Asking -/

/-- The first half of `flow_outcome`: the record is read. -/
def askOutcome (h : TorvynHost) (flowId : FlowId) : Except HostError Unit × TorvynHost :=
  match h.flows.lookup flowId with
  | some record => (.ok (), { h with asking := (flowId, record.state) :: h.asking })
  | none => (.error (.flowNotFound flowId), h)

/-- The answer of the reactor. -/
def reactorOutcome (h : TorvynHost) (flowId : FlowId) : Option FlowOutcome :=
  if h.reactorAlive then h.reactor.queryFlowOutcome flowId else none

/-- The second half of `flow_outcome`: the answer, given the state in the record. -/
def flowOutcome (h : TorvynHost) (flowId : FlowId) (cached : FlowState) : FlowOutcome :=
  match h.reactorOutcome flowId with
  | some outcome => outcome
  | none => ⟨if cached.isTerminal then cached else .completed, none⟩

/-- `flow_state`. -/
def flowState (h : TorvynHost) (flowId : FlowId) (cached : FlowState) : FlowState :=
  (h.flowOutcome flowId cached).state

/-- The question has been answered. -/
def answerOutcome (h : TorvynHost) (flowId : FlowId) (cached : FlowState) (order : List FlowId)
    (hash : HashOrder) : TorvynHost :=
  if (flowId, cached) ∈ h.asking then
    { (h.send (.queryFlowOutcome flowId) order hash).2 with
      asking := h.asking.erase (flowId, cached) }
  else h

/-! ## Shutting down -/

/-- `shutdown` begins: the reactor is told to shut down. -/
def beginShutdown (h : TorvynHost) : TorvynHost :=
  if h.status = .stopped then h
  else
    { h with
      status := .shuttingDown
      reactor := if h.reactorAlive then h.reactor.beginShutdown else h.reactor }

/-- `shutdown` ends: what has not ended in the records is cancelled there. -/
def endShutdown (h : TorvynHost) : TorvynHost :=
  if h.status = .shuttingDown then
    { h with
      flows := h.flows.mapValues fun record =>
        if record.state.isTerminal then record else { record with state := .cancelled }
      status := .stopped }
  else h

/-! ## Runs -/

/-- Whether the action needs the task of the coordinator. -/
def needsCoordinator : Action → Bool
  | .command _ _ _ | .beginShutdown | .pass _ _ => true
  | .beginTask _ _ _ | .round _ _ | .panic _ _ | .resource _ => false

/-- What can happen next to the host. -/
inductive HostAction where
  | startFlow (flowName : String)
      (configure : String → NodeDef → Except (List PipelineError) String) (ports : PortOrder)
      (instantiated : Except String Unit) (order : List FlowId) (hash : HashOrder)
  | cancelFlow (flowId : FlowId) (order : List FlowId) (hash : HashOrder)
  | recordCancelled (flowId : FlowId)
  | askOutcome (flowId : FlowId)
  | answerOutcome (flowId : FlowId) (cached : FlowState) (order : List FlowId) (hash : HashOrder)
  | beginShutdown
  | endShutdown
  /-- the reactor, the tasks of the flows and their components go on -/
  | reactor (action : Action)

/-- One action. -/
def step (h : TorvynHost) : HostAction → TorvynHost
  | .startFlow flowName configure ports instantiated order hash =>
      (h.startFlow flowName configure ports instantiated order hash).2
  | .cancelFlow flowId order hash => (h.cancelFlow flowId order hash).2
  | .recordCancelled flowId => h.recordCancelled flowId
  | .askOutcome flowId => (h.askOutcome flowId).2
  | .answerOutcome flowId cached order hash => h.answerOutcome flowId cached order hash
  | .beginShutdown => h.beginShutdown
  | .endShutdown => h.endShutdown
  | .reactor action =>
      if h.reactorAlive || !needsCoordinator action then
        match h.reactor.step action with
        | some c => { h with reactor := c }
        | none => { h with reactorAlive := false }
      else h

/-- A sequence of actions. -/
def run (h : TorvynHost) (actions : List HostAction) : TorvynHost := actions.foldl step h

/-! ## What is true of a flow -/

/-- The state in which a task has ended: the one that its driver has reached.  A driver that
panicked has failed. -/
def endState (task : FlowTask) : Option FlowState :=
  task.result.map fun
    | .ok state => state
    | .error _ => .failed

/-- The flow has ended in the state. -/
def Ended (c : Coordinator) (flowId : FlowId) (state : FlowState) : Prop :=
  ∃ task, c.Known flowId task ∧ endState task = some state

/-- If the host reports a terminal state, the flow has ended in it. -/
def Truthful (h : TorvynHost) (flowId : FlowId) (cached : FlowState) : Prop :=
  (h.flowState flowId cached).isTerminal = true →
    Ended h.reactor flowId (h.flowState flowId cached)

/-- The reactor has the flow or retains its outcome; else the flow has ended in the state that
the record stands for. -/
def Covered (h : TorvynHost) (flowId : FlowId) (cached : FlowState) : Prop :=
  (h.reactorAlive = true ∧ (flowId ∈ h.reactor.flows ∨ flowId ∈ h.reactor.outcomes)) ∨
    (cached = .running ∧ Ended h.reactor flowId .completed) ∨
    (cached = .cancelled ∧ Ended h.reactor flowId .cancelled)

/-! ## The invariant -/

/-- The host cancels flows in its records, and does nothing else to them. -/
def Recorded (state : FlowState) : Prop := state = .running ∨ state = .cancelled

/-- What holds of a host at any time. -/
structure Sound (h : TorvynHost) : Prop where
  tracked : Tracked h.reactor
  unmoved : Unmoved h.reactor
  records : ∀ flowId record, h.flows.lookup flowId = some record → Recorded record.state
  asked : ∀ flowId cached, (flowId, cached) ∈ h.asking → Recorded cached

theorem sound_new (flowDefs : KeyMap String FlowDef) (resources : ResourceManager) :
    Sound (new flowDefs resources) where
  tracked := tracked_new resources
  unmoved := fun flowId entry hlive => by cases hlive
  records := fun flowId record hrecord => by cases hrecord
  asked := fun flowId cached hasked => by cases hasked

variable {h h' : TorvynHost} {begins : Prop}

/-- The reactor goes on, and the records stay. -/
theorem Sound.changes (hs : Sound h) (hchanges : Changes begins h.reactor h'.reactor)
    (hflows : h'.flows = h.flows) (hasking : ∀ q ∈ h'.asking, q ∈ h.asking) : Sound h' where
  tracked := hs.tracked.changes hchanges
  unmoved := hs.unmoved.changes hchanges
  records := fun flowId record hrecord => hs.records flowId record (hflows ▸ hrecord)
  asked := fun flowId cached hasked => hs.asked flowId cached (hasking _ hasked)

/-- A command leaves the records alone. -/
theorem send_frame (h : TorvynHost) (command : ReactorCommand) (order : List FlowId)
    (hash : HashOrder) :
    Changes False h.reactor (h.send command order hash).2.reactor ∧
      (h.send command order hash).2.flows = h.flows ∧
      (h.send command order hash).2.asking = h.asking := by
  unfold send
  split
  · split
    · rename_i reply c hcommand
      have hchanges : Changes False h.reactor c := handleCommand_changes hcommand
      exact ⟨hchanges.trans (c.reapCompletedFlows_changes order hash), rfl, rfl⟩
    · exact ⟨.refl, rfl, rfl⟩
  · exact ⟨.refl, rfl, rfl⟩

theorem Sound.send (hs : Sound h) (command : ReactorCommand) (order : List FlowId)
    (hash : HashOrder) : Sound (h.send command order hash).2 := by
  obtain ⟨hchanges, hflows, hasking⟩ := h.send_frame command order hash
  exact hs.changes hchanges hflows fun q hq => hasking ▸ hq

/-- A record is added. -/
theorem Sound.insert (hs : Sound h) (flowId : FlowId) {record : FlowRecord}
    (hrecord : Recorded record.state) (status : HostStatus) :
    Sound { h with flows := h.flows.insert flowId record, status := status } where
  tracked := hs.tracked
  unmoved := hs.unmoved
  records := by
    intro flowId' record' hlookup
    have hlookup' : (h.flows.insert flowId record).lookup flowId' = some record' := hlookup
    by_cases hsame : flowId' = flowId
    · rw [hsame, AList.lookup_insert] at hlookup'
      exact Option.some.inj hlookup' ▸ hrecord
    · rw [AList.lookup_insert_ne hsame] at hlookup'
      exact hs.records flowId' record' hlookup'
  asked := hs.asked

theorem Sound.startFlow (hs : Sound h) (flowName : String)
    (configure : String → NodeDef → Except (List PipelineError) String) (ports : PortOrder)
    (instantiated : Except String Unit) (order : List FlowId) (hash : HashOrder) :
    Sound (h.startFlow flowName configure ports instantiated order hash).2 := by
  unfold TorvynHost.startFlow
  split
  · exact hs
  split
  · exact hs
  split
  · exact hs
  split
  · exact hs
  rename_i t _ _
  have hsent := hs.send (.spawnFlow (.defaultWithTopology (flowTopology t)) t.nodes.length) order
    hash
  split
  · rename_i flowId h' hsend
    rw [hsend] at hsent
    exact hsent.insert flowId (.inl rfl) .running
  · rename_i e h' hsend
    rw [hsend] at hsent
    exact hsent
  · rename_i h' hsend
    rw [hsend] at hsent
    exact hsent

/-- **Every action keeps the host in order.** -/
theorem Sound.step (hs : Sound h) (action : HostAction) : Sound (h.step action) := by
  cases action with
  | startFlow flowName configure ports instantiated order hash =>
      exact hs.startFlow flowName configure ports instantiated order hash
  | cancelFlow flowId order hash =>
      show Sound (h.cancelFlow flowId order hash).2
      have hsent := hs.send (.cancelFlow flowId .operatorRequest) order hash
      unfold TorvynHost.cancelFlow
      split
      · split
        · rename_i h' hsend
          rw [hsend] at hsent
          exact ⟨hsent.tracked, hsent.unmoved, hsent.records, hsent.asked⟩
        · rename_i e h' hsend
          rw [hsend] at hsent
          exact hsent
        · rename_i h' hsend
          rw [hsend] at hsent
          exact hsent
      · exact hs
  | recordCancelled flowId =>
      show Sound (h.recordCancelled flowId)
      unfold TorvynHost.recordCancelled
      split
      · refine ⟨hs.tracked, hs.unmoved, fun flowId' record hlookup => ?_, hs.asked⟩
        have hmodified : (h.flows.modify flowId fun record => { record with state := .cancelled
            }).lookup flowId' = some record := hlookup
        rw [KeyMap.lookup_modify] at hmodified
        split at hmodified
        · obtain ⟨record₀, -, rfl⟩ := Option.map_eq_some_iff.mp hmodified
          exact .inr rfl
        · exact hs.records flowId' record hmodified
      · exact hs
  | askOutcome flowId =>
      show Sound (h.askOutcome flowId).2
      unfold TorvynHost.askOutcome
      split
      · rename_i record hrecord
        refine ⟨hs.tracked, hs.unmoved, hs.records, fun flowId' cached hasked => ?_⟩
        rcases List.mem_cons.mp hasked with heq | hold
        · cases heq
          exact hs.records flowId record hrecord
        · exact hs.asked flowId' cached hold
      · exact hs
  | answerOutcome flowId cached order hash =>
      show Sound (h.answerOutcome flowId cached order hash)
      unfold TorvynHost.answerOutcome
      split
      · obtain ⟨hchanges, hflows, -⟩ := h.send_frame (.queryFlowOutcome flowId) order hash
        exact hs.changes hchanges hflows fun q hq => List.mem_of_mem_erase hq
      · exact hs
  | beginShutdown =>
      show Sound h.beginShutdown
      unfold TorvynHost.beginShutdown
      split
      · exact hs
      · have hchanges : Changes False h.reactor
            (if h.reactorAlive then h.reactor.beginShutdown else h.reactor) := by
          split
          · exact .single .shutdown
          · exact .refl
        exact hs.changes hchanges rfl fun q hq => hq
  | endShutdown =>
      show Sound h.endShutdown
      unfold TorvynHost.endShutdown
      split
      · refine ⟨hs.tracked, hs.unmoved, fun flowId record hlookup => ?_, hs.asked⟩
        rw [KeyMap.lookup_mapValues] at hlookup
        obtain ⟨record₀, hrecord₀, rfl⟩ := Option.map_eq_some_iff.mp hlookup
        split
        · exact hs.records flowId record₀ hrecord₀
        · exact .inr rfl
      · exact hs
  | reactor action =>
      simp only [TorvynHost.step]
      split
      · split
        · rename_i c hstep
          exact hs.changes (step_changes hstep) rfl fun q hq => hq
        · exact ⟨hs.tracked, hs.unmoved, hs.records, hs.asked⟩
      · exact hs

theorem Sound.run (hs : Sound h) (actions : List HostAction) : Sound (h.run actions) := by
  induction actions generalizing h with
  | nil => exact hs
  | cons action actions ih => exact ih (hs.step action)

/-! ## What the host reports -/

/-- A flow ends in one state. -/
theorem Ended.unique {c : Coordinator} (htracked : Tracked c) {flowId : FlowId}
    {state state' : FlowState} (h : Ended c flowId state) (h' : Ended c flowId state') :
    state = state' := by
  obtain ⟨task, hknown, hend⟩ := h
  obtain ⟨task', hknown', hend'⟩ := h'
  have hsame : task = task' := by
    rcases hknown with ⟨entry, hlive, rfl⟩ | hreaped <;>
      rcases hknown' with ⟨entry', hlive', rfl⟩ | hreaped'
    · rw [hlive] at hlive'
      rw [Option.some.inj hlive']
    · rw [htracked.gone hreaped'] at hlive
      cases hlive
    · rw [htracked.gone hreaped] at hlive'
      cases hlive'
    · exact htracked.once hreaped hreaped'
  rw [hsame] at hend
  exact Option.some.inj (hend.symm.trans hend')

/-- An outcome that is retained is how the flow has ended. -/
theorem ended_of_retained {c : Coordinator} (htracked : Tracked c) {flowId : FlowId}
    {outcome : FlowOutcome} (hkept : c.outcomes.lookup flowId = some outcome) :
    Ended c flowId outcome.state := by
  obtain ⟨task, result, hreaped, hresult, rfl⟩ := htracked.kept hkept
  refine ⟨task, .inr hreaped, ?_⟩
  unfold endState
  rw [hresult]
  cases result <;> rfl

/-- The reactor answers for the flows that it has and for those whose outcomes it retains. -/
theorem reactorOutcome_isSome {flowId : FlowId} : (h.reactorOutcome flowId).isSome = true ↔
    h.reactorAlive = true ∧ (flowId ∈ h.reactor.flows ∨ flowId ∈ h.reactor.outcomes) := by
  unfold reactorOutcome queryFlowOutcome
  cases halive : h.reactorAlive with
  | false => simp
  | true =>
      cases hlive : h.reactor.flows.lookup flowId with
      | some entry =>
          have hmem : flowId ∈ h.reactor.flows := KeyMap.mem_iff_exists.mpr ⟨entry, hlive⟩
          simp [hmem]
      | none =>
          have hnot : flowId ∉ h.reactor.flows := AList.lookup_eq_none.mp hlive
          simp [hnot, AList.lookup_isSome]

/-- What the reactor answers is true: of a flow that has not been reaped it says nothing
terminal. -/
theorem truthful_of_answer (hs : Sound h) {flowId : FlowId} {outcome : FlowOutcome}
    (hanswer : h.reactorOutcome flowId = some outcome) (cached : FlowState) :
    h.Truthful flowId cached := by
  have hreport : h.flowState flowId cached = outcome.state := by
    simp only [flowState, flowOutcome, hanswer]
  intro hterminal
  rw [hreport] at hterminal ⊢
  unfold reactorOutcome queryFlowOutcome at hanswer
  split at hanswer
  · cases hlive : h.reactor.flows.lookup flowId with
    | some entry =>
        rw [hlive] at hanswer
        obtain rfl := Option.some.inj hanswer
        have hstate : entry.handle.state = .instantiated := hs.unmoved flowId entry hlive
        rw [hstate] at hterminal
        cases hterminal
    | none =>
        rw [hlive] at hanswer
        exact ended_of_retained hs.tracked hanswer
  · cases hanswer

/-- **What the host reports is true exactly when it is covered.** -/
theorem truthful_iff (hs : Sound h) {cached : FlowState} (hcached : Recorded cached)
    (flowId : FlowId) : h.Truthful flowId cached ↔ h.Covered flowId cached := by
  cases hanswer : h.reactorOutcome flowId with
  | some outcome =>
      have hsome : (h.reactorOutcome flowId).isSome = true := by
        rw [hanswer]
        rfl
      exact iff_of_true (truthful_of_answer hs hanswer cached)
        (.inl (reactorOutcome_isSome.mp hsome))
  | none =>
      have hnone : ¬(h.reactorAlive = true ∧
          (flowId ∈ h.reactor.flows ∨ flowId ∈ h.reactor.outcomes)) := by
        rw [← reactorOutcome_isSome, hanswer]
        exact Bool.false_ne_true
      unfold Truthful Covered flowState flowOutcome
      rw [hanswer]
      rcases hcached with rfl | rfl
      · simp [hnone, FlowState.isTerminal]
      · simp [hnone, FlowState.isTerminal]

/-- **The host reports how its flows have ended**: in every state of a host, for every flow that
is being asked about, what is answered is true exactly when it is covered. -/
theorem outcome_truthful_iff (flowDefs : KeyMap String FlowDef) (resources : ResourceManager)
    (actions : List HostAction) :
    (∀ flowId cached, (flowId, cached) ∈ ((new flowDefs resources).run actions).asking →
      (((new flowDefs resources).run actions).Truthful flowId cached ↔
        ((new flowDefs resources).run actions).Covered flowId cached)) ∧
    ∀ flowId record, ((new flowDefs resources).run actions).flows.lookup flowId = some record →
      (((new flowDefs resources).run actions).Truthful flowId record.state ↔
        ((new flowDefs resources).run actions).Covered flowId record.state) := by
  have hs := (sound_new flowDefs resources).run actions
  exact ⟨fun flowId cached hasked => truthful_iff hs (hs.asked flowId cached hasked) flowId,
    fun flowId record hrecord => truthful_iff hs (hs.records flowId record hrecord) flowId⟩

/-! ## A failure that is reported as completed -/

/-- Components of which sources fail. -/
def failing : Invoker where
  pull := fun _ => .error (.fatal "lost")
  process := fun _ _ => .error (.fatal "lost")
  push := fun _ _ => .error (.fatal "lost")

/-- The flow `main` is started. -/
noncomputable def startMain : HostAction :=
  .startFlow "main" (fun _ node => .ok node.component) givenOrder (.ok ()) [] default

/-- The first of 65 flows fails, and then the others come and are cancelled. -/
noncomputable def manyFlows : List HostAction :=
  [startMain, .reactor (.beginTask ⟨1⟩ 0 0), .reactor (.round ⟨1⟩ (quietRound failing)),
    .reactor (.round ⟨1⟩ (quietRound failing)), .reactor (.pass [⟨1⟩] default)] ++
    (List.range' 2 64).flatMap fun n => startMain :: (shortLife n).map .reactor

/-- The host after all of them. -/
noncomputable def crowded : TorvynHost :=
  (new (KeyMap.collect [("main", pairFlow none none none)]) bareManager).run manyFlows

/-- The state in which the task of a flow that has been reaped has ended. -/
def endStateOf (flowId : FlowId) (log : List CoordinatorEvent) : Option FlowState :=
  log.findSome? fun
    | .reaped flowId' task => if flowId' = flowId then endState task else none
    | _ => none

set_option maxRecDepth 100000 in
theorem crowded_forgets :
    (crowded.flows.lookup ⟨1⟩).any (fun record =>
      decide (record.state = .running) &&
        decide (crowded.flowOutcome ⟨1⟩ record.state = ⟨.completed, none⟩)) = true ∧
    endStateOf ⟨1⟩ crowded.reactor.log = some .failed := by
  decide +kernel

theorem ended_of_endStateOf {c : Coordinator} {flowId : FlowId} {state : FlowState}
    (h : endStateOf flowId c.log = some state) : Ended c flowId state := by
  obtain ⟨event, hevent, hsome⟩ := List.exists_of_findSome?_eq_some h
  cases event with
  | reaped flowId' task =>
      simp only at hsome
      split at hsome
      · rename_i hsame
        exact ⟨task, .inr (hsame ▸ hevent), hsome⟩
      · cases hsome
  | cancelCalled | evicted => cases hsome

/-- The flow has failed, and the host reports that it has completed. -/
theorem failed_reported_completed :
    ∃ (flowDefs : KeyMap String FlowDef) (resources : ResourceManager)
      (actions : List HostAction) (flowId : FlowId) (record : FlowRecord),
      ((new flowDefs resources).run actions).flows.lookup flowId = some record ∧
      ((new flowDefs resources).run actions).flowState flowId record.state = .completed ∧
      Ended ((new flowDefs resources).run actions).reactor flowId .failed ∧
      ¬((new flowDefs resources).run actions).Truthful flowId record.state := by
  obtain ⟨hreport, hend⟩ := crowded_forgets
  obtain ⟨record, hrecord, hcompleted⟩ := (Option.any_eq_true _ _).mp hreport
  simp only [Bool.and_eq_true, decide_eq_true_eq] at hcompleted
  have hstate : crowded.flowState ⟨1⟩ record.state = .completed := by
    rw [flowState, hcompleted.2]
  have hfailed : Ended crowded.reactor ⟨1⟩ .failed := ended_of_endStateOf hend
  rw [crowded] at hrecord hstate hfailed
  refine ⟨_, _, manyFlows, ⟨1⟩, record, hrecord, hstate, hfailed, fun htruthful => ?_⟩
  have hended := htruthful (by rw [hstate]; rfl)
  rw [hstate] at hended
  cases hended.unique ((sound_new _ _).run manyFlows).tracked hfailed

end TorvynHost

end Torvyn.Host
