/-
# A host from its start to its end

`TorvynHost::run` of `torvyn-host/src/host.rs` starts the flows that are defined, in the order of
their names, waits until the reactor has no flow that goes on, or for a signal, and shuts down.
Between the calls of the host the coordinator serves others, and the flows go on.

A host that takes its flows for ended is right: each of them has been reaped with a result.  A
host that cannot start one of its flows returns at once, and keeps those before it on record as
running (`run_sound`).  A shutdown leaves no flow behind, if the flows get their rounds in time
(`shutdown_drains`).
-/
import Torvyn.Host.Flows
import Torvyn.Pipeline.Shutdown

namespace Torvyn.Host

open Reactor Reactor.Coordinator Pipeline

/-! ## The calls -/

/-- How a flow is started, and what happens before. -/
structure Launch where
  meanwhile : List Action
  configure : String → NodeDef → Except (List PipelineError) String
  ports : PortOrder
  instantiated : Except String Unit
  order : List FlowId
  hash : HashOrder

/-- One turn of the wait: what happens before it, whether a signal has arrived, and the pass after
the query. -/
structure Turn where
  meanwhile : List Action
  signalled : Bool
  order : List FlowId
  hash : HashOrder

/-- What happens while the reactor waits for its flows to end; it serves no command then. -/
structure Drain where
  actions : List Action
  served : ∀ action ∈ actions, ∀ command order hash, action ≠ .command command order hash

/-- Why the wait is over. -/
inductive WaitEnd where
  | allEnded
  | signalled

/-- `ShutdownOutcome`. -/
structure ShutdownOutcome where
  completed : ℕ
  cancelled : ℕ
  timedOut : ℕ
  deriving DecidableEq, Repr

/-- `already_stopped`. -/
def ShutdownOutcome.alreadyStopped : ShutdownOutcome := ⟨0, 0, 0⟩

/-- How far a host has come. -/
inductive RunProgress where
  | failed (error : HostError)
  | waiting
  | stopped (reason : WaitEnd) (outcome : ShutdownOutcome)

namespace TorvynHost

/-- The reactor and the flows go on. -/
def meanwhile (h : TorvynHost) (actions : List Action) : TorvynHost :=
  h.run (actions.map .reactor)

/-- The names of the flows that are defined, in their order. -/
def flowNames (h : TorvynHost) : List String := h.flowDefs.keys.mergeSort

/-- The first loop of `run`. -/
def startFlows (launch : String → Launch) :
    List String → TorvynHost → Except HostError Unit × TorvynHost
  | [], h => (.ok (), h)
  | flowName :: names, h =>
      match (h.meanwhile (launch flowName).meanwhile).startFlow flowName
        (launch flowName).configure (launch flowName).ports (launch flowName).instantiated
        (launch flowName).order (launch flowName).hash with
      | (.ok _, h) => startFlows launch names h
      | (.error e, h) => (.error e, h)

/-- `list_flows` of the reactor's handle: a reactor that is gone has no flows. -/
def listFlows (h : TorvynHost) (order : List FlowId) (hash : HashOrder) :
    List (FlowId × FlowState) × TorvynHost :=
  match h.send .listFlows order hash with
  | (some (.flows flows), h) => (flows, h)
  | (_, h) => ([], h)

/-- `wait_for_all_flows`, for some turns, or until a signal arrives. -/
def waitForAllFlows : List Turn → TorvynHost → Option WaitEnd × TorvynHost
  | [], h => (none, h)
  | turn :: turns, h =>
      if turn.signalled then (some .signalled, h.meanwhile turn.meanwhile)
      else
        let asked := (h.meanwhile turn.meanwhile).listFlows turn.order turn.hash
        if asked.1.all (·.2.isTerminal) then (some .allEnded, asked.2)
        else waitForAllFlows turns asked.2

/-- What the reactor replies to a shutdown; one that is gone has no flows. -/
def shutdownOutcome (h : TorvynHost) : ShutdownOutcome :=
  if h.reactorAlive then
    let result := h.reactor.shutdownResult
    ⟨result.completed, result.cancelled, result.timedOut⟩
  else ⟨0, 0, 0⟩

/-- `shutdown`, given what happens while the reactor waits for its flows. -/
def shutdown (h : TorvynHost) (drain : Drain) : ShutdownOutcome × TorvynHost :=
  if h.status = .stopped then (.alreadyStopped, h)
  else
    let h := h.beginShutdown.meanwhile drain.actions
    (h.shutdownOutcome, h.endShutdown)

/-- `run`. -/
def runHost (h : TorvynHost) (launch : String → Launch) (turns : List Turn)
    (drain : Drain) : RunProgress × TorvynHost :=
  match startFlows launch h.flowNames h with
  | (.error e, h) => (.failed e, h)
  | (.ok (), h) =>
      match waitForAllFlows turns h with
      | (none, h) => (.waiting, h)
      | (some reason, h) =>
          (.stopped reason (h.shutdown drain).1, (h.shutdown drain).2)

/-! ## What the host does to its reactor -/

/-- The reactor goes on, and the host stays as it is. -/
structure Moves (h h' : TorvynHost) : Prop where
  reactor : ∃ actions, h.reactor.run actions = some h'.reactor
  alive : h'.reactorAlive = true → h.reactorAlive = true
  flows : h'.flows = h.flows
  status : h'.status = h.status

namespace Moves

variable {h h' h'' : TorvynHost}

theorem refl (h : TorvynHost) : Moves h h := ⟨⟨[], rfl⟩, id, rfl, rfl⟩

theorem trans (hfirst : Moves h h') (hsecond : Moves h' h'') : Moves h h'' := by
  obtain ⟨actions, hrun⟩ := hfirst.reactor
  obtain ⟨more, hmore⟩ := hsecond.reactor
  refine ⟨⟨actions ++ more, ?_⟩, hfirst.alive ∘ hsecond.alive, hsecond.flows.trans hfirst.flows,
    hsecond.status.trans hfirst.status⟩
  rw [run_append, hrun]
  exact hmore

/-- One action of the reactor. -/
theorem step (h : TorvynHost) (action : Action) : Moves h (h.step (.reactor action)) := by
  simp only [TorvynHost.step]
  split
  · split
    · rename_i c hstep
      refine ⟨⟨[action], ?_⟩, id, rfl, rfl⟩
      show (h.reactor.step action).bind _ = _
      rw [hstep]
      rfl
    · exact ⟨⟨[], rfl⟩, fun halive => (by cases halive), rfl, rfl⟩
  · exact refl h

theorem meanwhile (h : TorvynHost) (actions : List Action) : Moves h (h.meanwhile actions) := by
  induction actions generalizing h with
  | nil => exact refl h
  | cons action actions ih => exact (step h action).trans (ih _)

/-- A command, and the pass after it. -/
theorem send (h : TorvynHost) (command : ReactorCommand) (order : List FlowId)
    (hash : HashOrder) : Moves h (h.send command order hash).2 := by
  unfold TorvynHost.send
  split
  · split
    · rename_i reply c hcommand
      refine ⟨⟨[.command command order hash], ?_⟩, id, rfl, rfl⟩
      show ((h.reactor.handleCommand command).map _).bind _ = _
      rw [hcommand]
      rfl
    · exact ⟨⟨[], rfl⟩, fun halive => (by cases halive), rfl, rfl⟩
  · exact refl h

theorem listFlows (h : TorvynHost) (order : List FlowId) (hash : HashOrder) :
    Moves h (h.listFlows order hash).2 := by
  have hsend := send h .listFlows order hash
  unfold TorvynHost.listFlows
  split
  · rename_i flows h' heq
    rw [heq] at hsend
    exact hsend
  · rename_i reply h' _ heq
    rw [heq] at hsend
    exact hsend

/-- The beginning of a shutdown. -/
theorem beginShutdown (hstatus : h.status ≠ .stopped) :
    Moves { h with status := .shuttingDown } h.beginShutdown := by
  unfold TorvynHost.beginShutdown
  rw [if_neg hstatus]
  refine ⟨?_, id, rfl, rfl⟩
  cases halive : h.reactorAlive with
  | true => exact ⟨[.beginShutdown], rfl⟩
  | false => exact ⟨[], rfl⟩

/-- What has been reaped stays on record. -/
theorem reaped (hmoves : Moves h h') {flowId : FlowId} {task : FlowTask}
    (hreaped : .reaped flowId task ∈ h.reactor.log) : .reaped flowId task ∈ h'.reactor.log := by
  obtain ⟨actions, hrun⟩ := hmoves.reactor
  exact (run_log_grows hrun).subset hreaped

end Moves

/-! ## Flows on record -/

/-- The reactor is in a state that it can reach, and has been given every flow on record. -/
structure Kept (h : TorvynHost) : Prop where
  reached : Reached h.reactor
  known : ∀ flowId ∈ h.flows, ∃ task, h.reactor.Known flowId task

theorem kept_new (flowDefs : KeyMap String FlowDef) (resources : ResourceManager) :
    Kept (new flowDefs resources) where
  reached := ⟨resources, [], rfl⟩
  known := fun flowId hmem => absurd hmem (AList.notMem_empty flowId)

variable {h h' : TorvynHost}

theorem Kept.moves (hkept : Kept h) (hmoves : Moves h h') : Kept h' := by
  obtain ⟨actions, hrun⟩ := hmoves.reactor
  refine ⟨hkept.reached.run hrun, fun flowId hmem => ?_⟩
  rw [hmoves.flows] at hmem
  obtain ⟨task, hknown⟩ := hkept.known flowId hmem
  exact known_run hkept.reached hknown hrun

/-- A new flow gets an id that no flow on record has. -/
theorem Kept.fresh (hkept : Kept h) : (⟨h.reactor.nextFlowId⟩ : FlowId) ∉ h.flows := by
  intro hmem
  obtain ⟨task, hknown⟩ := hkept.known _ hmem
  exact Nat.lt_irrefl _ (hkept.reached.tracked.known_lt hknown)

theorem known_register (c : Coordinator) (config : FlowConfig) (task : FlowTask) :
    (c.register config task).Known ⟨c.nextFlowId⟩ task :=
  .inl ⟨⟨⟨⟨c.nextFlowId⟩, .instantiated⟩, task, config.topology.stages.map (·.componentId)⟩,
    AList.lookup_insert _, rfl⟩

/-- The reactor knows a flow that it has just entered, after the pass too. -/
theorem spawned_known (hkept : Kept h) {config : FlowConfig} {instances : ℕ}
    {order : List FlowId} {hash : HashOrder} {flowId : FlowId}
    (hsend : h.send (.spawnFlow config instances) order hash =
      (some (.created (.ok flowId)), h')) :
    flowId = ⟨h.reactor.nextFlowId⟩ ∧ ∃ task, h'.reactor.Known flowId task := by
  unfold TorvynHost.send at hsend
  split at hsend
  · split at hsend
    · rename_i reply c hcommand
      obtain ⟨hreply, rfl⟩ := Prod.mk.inj hsend
      obtain rfl := Option.some.inj hreply
      have hstep : h.reactor.step (.command (.spawnFlow config instances) [] hash) = some c := by
        show (h.reactor.handleCommand _).map _ = _
        rw [hcommand]
        rfl
      have hpass : c.run [.pass order hash] = some (c.reapCompletedFlows order hash) := rfl
      simp only [handleCommand] at hcommand
      split at hcommand
      · cases hcommand
      · obtain ⟨⟨result, c₁⟩, hspawn, heq⟩ := Option.map_eq_some_iff.mp hcommand
        cases heq
        unfold spawnFlowWithInstances at hspawn
        split at hspawn
        · cases hspawn
        · simp only at hspawn
          split at hspawn
          · cases hspawn
          · obtain ⟨streams, -, heq⟩ := Option.map_eq_some_iff.mp hspawn
            cases heq
            exact ⟨rfl, known_run (hkept.reached.step hstep) (known_register _ _ _) hpass⟩
    · cases hsend
  · cases hsend

/-- What a start of a flow does. -/
theorem startFlow_cases (hkept : Kept h) (flowName : String)
    (configure : String → NodeDef → Except (List PipelineError) String) (ports : PortOrder)
    (instantiated : Except String Unit) (order : List FlowId) (hash : HashOrder) :
    (∃ e h', h.startFlow flowName configure ports instantiated order hash = (.error e, h') ∧
      Moves h h') ∨
    ∃ flowId t h', h.startFlow flowName configure ports instantiated order hash =
        (.ok flowId,
          { h' with
            flows := h'.flows.insert flowId (recordOf flowId flowName t)
            status := .running }) ∧
      Moves h h' ∧ flowId ∉ h.flows ∧ ∃ task, h'.reactor.Known flowId task := by
  unfold TorvynHost.startFlow
  split
  · exact .inl ⟨_, _, rfl, .refl h⟩
  split
  · exact .inl ⟨_, _, rfl, .refl h⟩
  split
  · exact .inl ⟨_, _, rfl, .refl h⟩
  split
  · exact .inl ⟨_, _, rfl, .refl h⟩
  rename_i t _ _
  have hmoves := Moves.send h (.spawnFlow (.defaultWithTopology (flowTopology t)) t.nodes.length)
    order hash
  split
  · rename_i flowId h' hsend
    rw [hsend] at hmoves
    obtain ⟨rfl, hknown⟩ := spawned_known hkept hsend
    exact .inr ⟨_, t, h', rfl, hmoves, hkept.fresh, hknown⟩
  · rename_i e h' hsend
    rw [hsend] at hmoves
    exact .inl ⟨_, _, rfl, hmoves⟩
  · rename_i reply h' _ _ hsend
    rw [hsend] at hmoves
    exact .inl ⟨_, _, rfl, hmoves⟩

/-! ## The starts -/

/-- The names of the flows on record. -/
def recordNames (h : TorvynHost) : List String := h.flows.entries.map (·.2.name)

/-- Every flow on record is taken for running. -/
def AllRunning (h : TorvynHost) : Prop :=
  ∀ flowId record, h.flows.lookup flowId = some record → record.state = .running

/-- What a host has done that has started the flows of some names. -/
structure Started (started : List String) (h h' : TorvynHost) : Prop where
  kept : Kept h'
  names : h'.recordNames.Perm (h.recordNames ++ started)
  status : h'.status = if started = [] then h.status else .running
  running : AllRunning h → AllRunning h'

theorem Started.cons {flowName : String} {started : List String} {h'' : TorvynHost}
    (hfirst : Started [flowName] h h') (hrest : Started started h' h'') :
    Started (flowName :: started) h h'' where
  kept := hrest.kept
  names := by
    refine hrest.names.trans ((hfirst.names.append_right started).trans ?_)
    rw [List.append_assoc, List.singleton_append]
  status := by
    have hstatus : h'.status = .running := hfirst.status
    rw [hrest.status, hstatus, ite_self]
    rfl
  running := hrest.running ∘ hfirst.running

theorem Started.of_moves (hkept : Kept h) (hmoves : Moves h h') : Started [] h h' where
  kept := hkept.moves hmoves
  names := by rw [List.append_nil, recordNames, recordNames, hmoves.flows]
  status := hmoves.status
  running := fun hrunning => by rwa [AllRunning, hmoves.flows]

/-- One flow has been started. -/
theorem Started.insert (hkept : Kept h) (hmoves : Moves h h') {flowId : FlowId}
    (flowName : String) (t : PipelineTopology) (hfresh : flowId ∉ h.flows)
    (hknown : ∃ task, h'.reactor.Known flowId task) :
    Started [flowName] h
      { h' with
        flows := h'.flows.insert flowId (recordOf flowId flowName t)
        status := .running } := by
  have hkept' := hkept.moves hmoves
  rw [← hmoves.flows] at hfresh
  refine ⟨⟨hkept'.reached, fun other hmem => ?_⟩, ?_, rfl, fun hrunning other record hlookup => ?_⟩
  · rcases AList.mem_insert _ |>.mp hmem with rfl | hold
    · exact hknown
    · exact hkept'.known other hold
  · show ((h'.flows.insert flowId _).entries.map _).Perm _
    rw [AList.entries_insert_of_notMem hfresh, List.map_cons, recordNames, ← hmoves.flows]
    exact (List.perm_append_singleton _ _).symm
  · by_cases hid : other = flowId
    · subst hid
      rw [AList.lookup_insert] at hlookup
      rw [← Option.some.inj hlookup]
      rfl
    · rw [AList.lookup_insert_ne hid, hmoves.flows] at hlookup
      exact hrunning other record hlookup

/-- **The starts**: a start that fails is the last, and those before it stay. -/
theorem startFlows_spec (hkept : Kept h) (launch : String → Launch) (names : List String) :
    ∃ started rest, names = started ++ rest ∧
      Started started h (startFlows launch names h).2 ∧
      ((startFlows launch names h).1 = .ok () ∧ rest = [] ∨
        (∃ e, (startFlows launch names h).1 = .error e) ∧ rest ≠ []) := by
  induction names generalizing h with
  | nil => exact ⟨[], [], rfl, .of_moves hkept (.refl h), .inl ⟨rfl, rfl⟩⟩
  | cons flowName names ih =>
      have hbefore := Moves.meanwhile h (launch flowName).meanwhile
      have hkept' := hkept.moves hbefore
      rcases startFlow_cases hkept' flowName (launch flowName).configure (launch flowName).ports
        (launch flowName).instantiated (launch flowName).order (launch flowName).hash with
        ⟨e, h', heq, hmoves⟩ | ⟨flowId, t, h', heq, hmoves, hfresh, hknown⟩
      · have hstart : startFlows launch (flowName :: names) h = (.error e, h') := by
          rw [startFlows, heq]
        rw [hstart]
        exact ⟨[], _, rfl, .of_moves hkept (hbefore.trans hmoves),
          .inr ⟨⟨e, rfl⟩, List.cons_ne_nil _ _⟩⟩
      · rw [hbefore.flows] at hfresh
        have hfirst := Started.insert hkept (hbefore.trans hmoves) flowName t hfresh hknown
        obtain ⟨started, rest, hnames, hstarted, hresult⟩ := ih hfirst.kept
        rw [startFlows, heq]
        exact ⟨flowName :: started, rest, congrArg (flowName :: ·) hnames, hfirst.cons hstarted,
          hresult⟩

/-! ## The wait -/

/-- The reactor has no flow that goes on exactly when it has no flow: it does not tell a flow
that has ended from one that has just been entered. -/
theorem listFlows_ended (hkept : Kept h) {order : List FlowId} {hash : HashOrder}
    (halive : (h.listFlows order hash).2.reactorAlive = true)
    (hall : (h.listFlows order hash).1.all (·.2.isTerminal) = true) :
    h.reactor.flows.entries = [] := by
  have halive' := (Moves.listFlows h order hash).alive halive
  have hreply : (h.listFlows order hash).1 = h.reactor.listFlows := by
    rw [TorvynHost.listFlows, TorvynHost.send, if_pos halive']
    rfl
  rw [hreply, List.all_eq_true] at hall
  rw [List.eq_nil_iff_forall_not_mem]
  rintro ⟨flowId, entry⟩ hmem
  have hstate := hkept.reached.unmoved flowId entry (KeyMap.mem_entries_iff.mp hmem)
  have hterminal := hall _ (List.mem_map.mpr ⟨⟨flowId, entry⟩, hmem, rfl⟩)
  rw [hstate] at hterminal
  cases hterminal

/-- Every flow on record has been reaped. -/
def AllReaped (h : TorvynHost) : Prop :=
  ∀ flowId ∈ h.flows, ∃ task, .reaped flowId task ∈ h.reactor.log

theorem AllReaped.moves (hreaped : AllReaped h) (hmoves : Moves h h') : AllReaped h' := by
  intro flowId hmem
  rw [hmoves.flows] at hmem
  obtain ⟨task, htask⟩ := hreaped flowId hmem
  exact ⟨task, hmoves.reaped htask⟩

/-- **The wait**: whoever takes the flows for ended is right, unless the reactor is gone. -/
theorem waitForAllFlows_spec (hkept : Kept h) (turns : List Turn) :
    Moves h (waitForAllFlows turns h).2 ∧
      ((waitForAllFlows turns h).1 = some .allEnded →
        (waitForAllFlows turns h).2.reactorAlive = true →
        AllReaped (waitForAllFlows turns h).2) := by
  induction turns generalizing h with
  | nil => exact ⟨.refl h, fun hended => (by cases hended)⟩
  | cons turn turns ih =>
      have hbefore := Moves.meanwhile h turn.meanwhile
      have hasked := Moves.listFlows (h.meanwhile turn.meanwhile) turn.order turn.hash
      rw [waitForAllFlows]
      split
      · exact ⟨hbefore, fun hended => (by cases hended)⟩
      · simp only
        split
        · rename_i hall
          refine ⟨hbefore.trans hasked, fun _ halive => ?_⟩
          have hkept' := hkept.moves hbefore
          have hnone := listFlows_ended hkept' halive hall
          refine AllReaped.moves (fun flowId hmem => ?_) hasked
          obtain ⟨task, ⟨entry, hlive, -⟩ | hreaped⟩ := hkept'.known flowId hmem
          · have hentry := KeyMap.mem_entries_iff.mpr hlive
            rw [hnone] at hentry
            cases hentry
          · exact ⟨task, hreaped⟩
        · obtain ⟨hmoves, hended⟩ := ih ((hkept.moves hbefore).moves hasked)
          exact ⟨(hbefore.trans hasked).trans hmoves, hended⟩

/-! ## The shutdown -/

/-- After a shutdown nothing on record goes on. -/
structure Stopped (h : TorvynHost) : Prop where
  status : h.status = .stopped
  records : ∀ flowId record, h.flows.lookup flowId = some record → record.state.isTerminal = true

/-- What the end of a shutdown does to the records. -/
theorem endShutdown_spec (hstatus : h.status = .shuttingDown) :
    Stopped h.endShutdown ∧ h.endShutdown.recordNames = h.recordNames ∧
      h.endShutdown.reactor = h.reactor ∧ h.endShutdown.reactorAlive = h.reactorAlive ∧
        ∀ flowId, flowId ∈ h.endShutdown.flows ↔ flowId ∈ h.flows := by
  unfold endShutdown
  rw [if_pos hstatus]
  refine ⟨⟨rfl, fun flowId record hlookup => ?_⟩, ?_, rfl, rfl, fun flowId => ?_⟩
  · rw [KeyMap.lookup_mapValues] at hlookup
    obtain ⟨record₀, -, rfl⟩ := Option.map_eq_some_iff.mp hlookup
    split
    · assumption
    · rfl
  · show (List.map _ _).map _ = _
    rw [List.map_map]
    refine List.map_congr_left fun e _ => ?_
    simp only [Function.comp_apply]
    split <;> rfl
  · rw [← AList.lookup_isSome, KeyMap.lookup_mapValues, Option.isSome_map, AList.lookup_isSome]

/-- What a shutdown does to the host. -/
structure ShutDown (h h' : TorvynHost) : Prop where
  kept : Kept h'
  stopped : Stopped h'
  names : h'.recordNames = h.recordNames
  alive : h'.reactorAlive = true → h.reactorAlive = true
  reaped : AllReaped h → AllReaped h'

theorem shutdown_spec (hkept : Kept h) (hstatus : h.status ≠ .stopped) (drain : Drain) :
    ShutDown h (h.shutdown drain).2 := by
  have hbegin : Kept { h with status := .shuttingDown } := ⟨hkept.reached, hkept.known⟩
  have hmoves : Moves { h with status := .shuttingDown }
      (h.beginShutdown.meanwhile drain.actions) :=
    (Moves.beginShutdown hstatus).trans (.meanwhile _ drain.actions)
  have hkept' := hbegin.moves hmoves
  obtain ⟨hstopped, hnames, hreactor, halive, hmem⟩ := endShutdown_spec hmoves.status
  rw [shutdown, if_neg hstatus]
  refine ⟨⟨?_, fun flowId hflow => ?_⟩, hstopped, ?_, fun h' => ?_, fun hall flowId hflow => ?_⟩
  · exact hreactor ▸ hkept'.reached
  · exact hreactor ▸ hkept'.known flowId ((hmem flowId).mp hflow)
  · exact hnames.trans (congrArg (fun flows => flows.entries.map (·.2.name)) hmoves.flows)
  · exact hmoves.alive (halive ▸ h')
  · have hall' : AllReaped { h with status := .shuttingDown } := hall
    obtain ⟨task, hreaped⟩ := hall'.moves hmoves flowId ((hmem flowId).mp hflow)
    exact ⟨task, hreactor.symm ▸ hreaped⟩

/-! ## The whole -/

/-- What is true of a host that has come so far. -/
structure RunSound (names : List String) (progress : RunProgress) (h : TorvynHost) : Prop where
  /-- the reactor has every flow on record, or has reaped it -/
  kept : Kept h
  /-- the flows before one that cannot be started are on record, as running -/
  failed : ∀ e, progress = .failed e → ∃ started rest, names = started ++ rest ∧ rest ≠ [] ∧
    h.recordNames.Perm started ∧ h.status = (if started = [] then .ready else .running) ∧
      AllRunning h
  /-- else every flow has been started once -/
  complete : (∀ e, progress ≠ .failed e) → h.recordNames.Perm names
  /-- flows that are taken for ended have ended -/
  ended : ∀ outcome, progress = .stopped .allEnded outcome → h.reactorAlive = true →
    ∀ flowId ∈ h.flows, ∃ task result, .reaped flowId task ∈ h.reactor.log ∧
      task.result = some result
  /-- a host that has stopped has no flow that goes on -/
  stopped : ∀ reason outcome, progress = .stopped reason outcome → Stopped h

/-- **A host from its start to its end.**  Whatever the flows are, and whatever happens between
the calls of the host: a start that fails ends the run, without a shutdown; else every flow is
started once, and a host that stops because its flows have ended has had each of them reaped. -/
theorem run_sound (flowDefs : KeyMap String FlowDef) (resources : ResourceManager)
    (launch : String → Launch) (turns : List Turn) (drain : Drain) :
    RunSound (new flowDefs resources).flowNames
      ((new flowDefs resources).runHost launch turns drain).1
      ((new flowDefs resources).runHost launch turns drain).2 := by
  have hnew := kept_new flowDefs resources
  obtain ⟨started, rest, hnames, hstarted, hresult⟩ :=
    startFlows_spec hnew launch (new flowDefs resources).flowNames
  generalize hstarts : startFlows launch (new flowDefs resources).flowNames
    (new flowDefs resources) = starts at hstarted hresult
  obtain ⟨result, h⟩ := starts
  have hrecords : h.recordNames.Perm started := hstarted.names
  have hrunning : AllRunning h := hstarted.running fun flowId record hlookup => by cases hlookup
  rcases hresult with ⟨rfl, rfl⟩ | ⟨⟨e, rfl⟩, hrest⟩
  · rw [List.append_nil] at hnames
    obtain ⟨hmoves, hended⟩ := waitForAllFlows_spec hstarted.kept turns
    generalize hwait : waitForAllFlows turns h = waited at hmoves hended
    obtain ⟨reason, h'⟩ := waited
    have hkept := hstarted.kept.moves hmoves
    have hrecords' : h'.recordNames.Perm (new flowDefs resources).flowNames := by
      rw [hnames, recordNames, hmoves.flows]
      exact hrecords
    cases reason with
    | none =>
        simp only [runHost, hstarts, hwait]
        exact ⟨hkept, fun e h => (by cases h), fun _ => hrecords', fun outcome h => (by cases h),
          fun reason outcome h => (by cases h)⟩
    | some reason =>
        have hstatus : h'.status ≠ .stopped := by
          rw [hmoves.status, hstarted.status]
          split <;> exact fun h => by cases h
        obtain ⟨hkept', hstopped, hnames', halive, hreaped⟩ := shutdown_spec hkept hstatus drain
        simp only [runHost, hstarts, hwait]
        refine ⟨hkept', fun e h => (by cases h), fun _ => hnames' ▸ hrecords',
          fun outcome heq halive' flowId hmem => ?_, fun _ _ _ => hstopped⟩
        cases heq
        obtain ⟨task, htask⟩ := hreaped (hended rfl (halive halive')) flowId hmem
        obtain ⟨result, hresult⟩ := hkept'.reached.tracked.finished htask
        exact ⟨task, result, htask, hresult⟩
  · simp only [runHost, hstarts]
    exact ⟨hstarted.kept, fun e' _ => ⟨started, rest, hnames, hrest, hrecords, hstarted.status,
      hrunning⟩, fun h => absurd rfl (h e), fun outcome h => (by cases h),
      fun reason outcome h => (by cases h)⟩

/-! ## Hosts that go on -/

/-- Whatever happens next to a host, the reactor has every flow on record, or has reaped it. -/
theorem Kept.step (hkept : Kept h) (action : HostAction) : Kept (h.step action) := by
  cases action with
  | startFlow flowName configure ports instantiated order hash =>
      show Kept (h.startFlow flowName configure ports instantiated order hash).2
      rcases startFlow_cases hkept flowName configure ports instantiated order hash with
        ⟨e, h', heq, hmoves⟩ | ⟨flowId, t, h', heq, hmoves, hfresh, hknown⟩
      · rw [heq]
        exact hkept.moves hmoves
      · rw [heq]
        exact (Started.insert hkept hmoves flowName t hfresh hknown).kept
  | cancelFlow flowId order hash =>
      show Kept (h.cancelFlow flowId order hash).2
      have hsent := hkept.moves (Moves.send h (.cancelFlow flowId .operatorRequest) order hash)
      unfold TorvynHost.cancelFlow
      split
      · split <;> rename_i hsend <;> rw [hsend] at hsent
        · exact ⟨hsent.reached, hsent.known⟩
        · exact hsent
        · exact hsent
      · exact hkept
  | recordCancelled flowId =>
      show Kept (h.recordCancelled flowId)
      unfold TorvynHost.recordCancelled
      split
      · refine ⟨hkept.reached, fun other hmem => hkept.known other ?_⟩
        rw [← AList.lookup_isSome] at hmem ⊢
        rw [show (h.flows.modify flowId _).lookup other = _ from KeyMap.lookup_modify ..] at hmem
        split at hmem
        · rename_i hid
          rwa [Option.isSome_map, ← hid] at hmem
        · exact hmem
      · exact hkept
  | askOutcome flowId =>
      show Kept (h.askOutcome flowId).2
      unfold TorvynHost.askOutcome
      split
      · exact ⟨hkept.reached, hkept.known⟩
      · exact hkept
  | answerOutcome flowId cached order hash =>
      show Kept (h.answerOutcome flowId cached order hash)
      have hsent := hkept.moves (Moves.send h (.queryFlowOutcome flowId) order hash)
      unfold TorvynHost.answerOutcome
      split
      · exact ⟨hsent.reached, hsent.known⟩
      · exact hkept
  | beginShutdown =>
      show Kept h.beginShutdown
      by_cases hstatus : h.status = .stopped
      · rw [TorvynHost.beginShutdown, if_pos hstatus]
        exact hkept
      · have hbegin : Kept { h with status := .shuttingDown } := ⟨hkept.reached, hkept.known⟩
        exact hbegin.moves (.beginShutdown hstatus)
  | endShutdown =>
      show Kept h.endShutdown
      by_cases hstatus : h.status = .shuttingDown
      · obtain ⟨-, -, hreactor, -, hmem⟩ := endShutdown_spec hstatus
        exact ⟨hreactor ▸ hkept.reached, fun flowId hflow =>
          hreactor ▸ hkept.known flowId ((hmem flowId).mp hflow)⟩
      · rw [TorvynHost.endShutdown, if_neg hstatus]
        exact hkept
  | reactor action => exact hkept.moves (.step h action)

theorem Kept.run (hkept : Kept h) (actions : List HostAction) : Kept (h.run actions) := by
  induction actions generalizing h with
  | nil => exact hkept
  | cons action actions ih => exact ih (hkept.step action)

/-! ## A shutdown in time -/

section Draining

variable {c c' : Coordinator} {flowId : FlowId}

/-- A flow that is gone does not come back without a command. -/
theorem gone_step {action : Action}
    (hserved : ∀ command order hash, action ≠ .command command order hash)
    (hgone : c.flows.lookup flowId = none) (hstep : c.step action = some c') :
    c'.flows.lookup flowId = none := by
  have hwithTask : ∀ other task, (c.withTask other task).flows.lookup flowId = none := by
    intro other task
    show (c.flows.modify other _).lookup flowId = none
    rw [KeyMap.lookup_modify]
    split
    · rename_i hid
      rw [← hid, hgone, Option.map_none]
    · exact hgone
  cases action with
  | command command order hash => exact absurd rfl (hserved command order hash)
  | beginShutdown =>
      cases hstep
      show (c.flows.mapValues _).lookup flowId = none
      rw [KeyMap.lookup_mapValues, hgone, Option.map_none]
  | pass order hash =>
      cases hstep
      exact lookup_foldl_reapFlow hash _ (.inr hgone) fun entry hlive => by
        rw [hgone] at hlive
        cases hlive
  | beginTask other now wallClock =>
      cases hstep
      unfold beginTask
      split
      · exact hwithTask _ _
      · exact hgone
  | round other r =>
      cases hstep
      unfold roundOf
      split
      · exact hwithTask _ _
      · exact hgone
  | panic other message =>
      cases hstep
      unfold panicTask
      split
      · split
        · exact hgone
        · exact hwithTask _ _
      · exact hgone
  | resource op =>
      cases hstep
      exact hgone

theorem gone_run {actions : List Action}
    (hserved : ∀ action ∈ actions, ∀ command order hash, action ≠ .command command order hash)
    (hgone : c.flows.lookup flowId = none) (hrun : c.run actions = some c') :
    c'.flows.lookup flowId = none := by
  induction actions generalizing c with
  | nil =>
      cases hrun
      exact hgone
  | cons action actions ih =>
      obtain ⟨c₁, hstep, hrest⟩ := Option.bind_eq_some_iff.mp hrun
      exact ih (fun a ha => hserved a (List.mem_cons_of_mem _ ha))
        (gone_step (hserved action List.mem_cons_self) hgone hstep) hrest

/-- Without a command the coordinator does not panic. -/
theorem meanwhile_served {h : TorvynHost} (halive : h.reactorAlive = true) {actions : List Action}
    (hserved : ∀ action ∈ actions, ∀ command order hash, action ≠ .command command order hash) :
    h.reactor.run actions = some (h.meanwhile actions).reactor ∧
      (h.meanwhile actions).reactorAlive = true := by
  induction actions generalizing h with
  | nil => exact ⟨rfl, halive⟩
  | cons action actions ih =>
      obtain ⟨c, hc⟩ : ∃ c, h.reactor.step action = some c := by
        cases action with
        | command command order hash =>
            exact absurd rfl (hserved _ List.mem_cons_self command order hash)
        | beginShutdown | pass | beginTask | round | panic | resource => exact ⟨_, rfl⟩
      have hstep : h.step (.reactor action) = { h with reactor := c } := by
        simp only [TorvynHost.step, halive, Bool.true_or, if_true, hc]
      have hnext : h.meanwhile (action :: actions) =
          ({ h with reactor := c } : TorvynHost).meanwhile actions :=
        congrArg (fun h' : TorvynHost => h'.meanwhile actions) hstep
      obtain ⟨hrun, halive'⟩ := ih (h := { h with reactor := c }) halive
        fun a ha => hserved a (List.mem_cons_of_mem _ ha)
      rw [hnext]
      refine ⟨?_, halive'⟩
      show (h.reactor.step action).bind _ = _
      rw [hc]
      exact hrun

/-- Every live flow has ended or has rounds enough to drain, and the pass after them meets it. -/
def InTime (c : Coordinator) (early : List Action) (order : List FlowId) : Prop :=
  ∀ flowId entry, c.flows.lookup flowId = some entry → flowId ∈ order ∧
    (entry.task.isFinished = true ∨
      ∃ d, entry.task = .driver d ∧ queuedWork d.topology d.streams + 2 ≤ roundsOf flowId early)

/-- Whether all flows are in time. -/
def inTime (c : Coordinator) (early : List Action) (order : List FlowId) : Bool :=
  c.flows.entries.all fun e => decide (e.1 ∈ order) && match e.2.task with
    | .driver d => decide (queuedWork d.topology d.streams + 2 ≤ roundsOf e.1 early)
    | task => task.isFinished

theorem inTime_of_check {early : List Action} {order : List FlowId}
    (hcheck : inTime c early order = true) : InTime c early order := by
  intro flowId entry hlive
  have hentry := List.all_eq_true.mp hcheck _ (KeyMap.mem_entries_iff.mpr hlive)
  simp only [Bool.and_eq_true, decide_eq_true_eq] at hentry
  refine ⟨hentry.1, ?_⟩
  have hwork := hentry.2
  cases htask : entry.task with
  | driver d =>
      rw [htask] at hwork
      exact .inr ⟨d, rfl, of_decide_eq_true hwork⟩
  | unstarted | panicked | stub =>
      rw [htask] at hwork
      exact .inl hwork

/-- The pass after the rounds takes out the last flow. -/
theorem drained_of_inTime (hreached : Reached c) {early rest : List Action}
    {order : List FlowId} {hash : HashOrder} (htime : InTime c early order)
    (hserved : ∀ action ∈ early ++ .pass order hash :: rest,
      ∀ command order hash, action ≠ .command command order hash)
    (hrun : c.beginShutdown.run (early ++ .pass order hash :: rest) = some c') :
    c'.flows.lookup flowId = none := by
  have hbegin : c.step .beginShutdown = some c.beginShutdown := rfl
  rw [run_append] at hrun
  obtain ⟨c₁, hearly, hrun⟩ := Option.bind_eq_some_iff.mp hrun
  obtain ⟨c₂, hpass, hrest⟩ := Option.bind_eq_some_iff.mp hrun
  have hreached₁ := (hreached.step hbegin).run hearly
  refine gone_run (fun a ha => hserved a (by simp [ha])) ?_ hrest
  cases hlive : c.flows.lookup flowId with
  | none =>
      have hgone : c.beginShutdown.flows.lookup flowId = none :=
        gone_step (fun _ _ _ h => by cases h) hlive hbegin
      exact gone_step (fun _ _ _ h => by cases h)
        (gone_run (fun a ha => hserved a (List.mem_append_left _ ha)) hgone hearly) hpass
  | some entry =>
      obtain ⟨hmeets, hwork⟩ := htime flowId entry hlive
      have hends : WindsDown flowId (roundsOf flowId early) c.beginShutdown :=
        .of_cancel hreached hlive rfl hwork hbegin
      have hended : WindsDown flowId 0 c₁ := by
        have hrounds := hends.run (hreached.step hbegin) hearly
        rwa [Nat.sub_self] at hrounds
      cases hpass
      exact lookup_of_pass hmeets hash fun entry' hlive' => hended.finished hlive'

end Draining

/-- **A shutdown in time.**  In every state that a host reaches: if every live flow has ended, or
has as many rounds as its queued elements account for, and two more, before a pass that meets it,
then the reactor reports that none has timed out, and every flow on record has been reaped. -/
theorem shutdown_drains (flowDefs : KeyMap String FlowDef) (resources : ResourceManager)
    (actions : List HostAction) {drain : Drain} {early rest : List Action} {order : List FlowId}
    {hash : HashOrder} (halive : ((new flowDefs resources).run actions).reactorAlive = true)
    (hstatus : ((new flowDefs resources).run actions).status ≠ .stopped)
    (hdrain : drain.actions = early ++ .pass order hash :: rest)
    (htime : InTime ((new flowDefs resources).run actions).reactor early order) :
    (((new flowDefs resources).run actions).shutdown drain).1 = ⟨0, 0, 0⟩ ∧
      AllReaped (((new flowDefs resources).run actions).shutdown drain).2 := by
  have hkept := (kept_new flowDefs resources).run actions
  generalize (new flowDefs resources).run actions = h at halive hstatus htime hkept ⊢
  have hshut := shutdown_spec hkept hstatus drain
  have hbegin : h.beginShutdown =
      { h with status := .shuttingDown, reactor := h.reactor.beginShutdown } := by
    rw [TorvynHost.beginShutdown, if_neg hstatus, if_pos halive]
  have halive' : h.beginShutdown.reactorAlive = true := by rw [hbegin]; exact halive
  obtain ⟨hrun, halive''⟩ := meanwhile_served halive' drain.served
  have hgone : ∀ flowId, (h.beginShutdown.meanwhile drain.actions).reactor.flows.lookup flowId =
      none := by
    intro flowId
    have hserved := drain.served
    rw [hdrain] at hserved
    refine @drained_of_inTime _ _ flowId hkept.reached early rest order hash htime hserved ?_
    rw [← hdrain, ← hrun, hbegin]
  have hend : h.shutdown drain = ((h.beginShutdown.meanwhile drain.actions).shutdownOutcome,
      (h.beginShutdown.meanwhile drain.actions).endShutdown) := by
    rw [shutdown, if_neg hstatus]
  constructor
  · have hkeys : (h.beginShutdown.meanwhile drain.actions).reactor.flows.keys = [] := by
      rw [List.eq_nil_iff_forall_not_mem]
      intro flowId hmem
      exact AList.lookup_eq_none.mp (hgone flowId) hmem
    rw [hend]
    show shutdownOutcome _ = _
    rw [shutdownOutcome, if_pos halive'', shutdownResult, hkeys]
    rfl
  · intro flowId hmem
    obtain ⟨task, ⟨entry, hlive, -⟩ | hreaped⟩ := hshut.kept.known flowId hmem
    · have hreactor : (h.shutdown drain).2.reactor =
          (h.beginShutdown.meanwhile drain.actions).reactor := by
        rw [hend]
        unfold endShutdown
        split <;> rfl
      rw [hreactor, hgone flowId] at hlive
      cases hlive
    · exact ⟨task, hreaped⟩

/-! ## A host with a pair of components -/

/-- The flow `main` has been started, and its driver has begun. -/
noncomputable def mainBegun : List HostAction := [startMain, .reactor (.beginTask ⟨1⟩ 0 0)]

/-- Two rounds of the flow, and a pass. -/
noncomputable def twoRounds : Drain where
  actions := List.replicate 2 (.round ⟨1⟩ (quietRound failing)) ++ .pass [⟨1⟩] default :: []
  served := by
    intro action hmem command order hash
    rcases List.mem_append.mp hmem with hround | hpass
    · rw [List.eq_of_mem_replicate hround]
      exact fun h => by cases h
    · rw [List.mem_singleton.mp hpass]
      exact fun h => by cases h

/-- The flow is reaped. -/
theorem shutdown_drains_main :
    (((new (KeyMap.collect [("main", pairFlow none none none)]) bareManager).run
      mainBegun).shutdown twoRounds).1 = ⟨0, 0, 0⟩ ∧
    AllReaped (((new (KeyMap.collect [("main", pairFlow none none none)]) bareManager).run
      mainBegun).shutdown twoRounds).2 :=
  shutdown_drains _ _ mainBegun (by decide) (by decide) rfl (inTime_of_check (by decide))

end TorvynHost

end Torvyn.Host
