/-
# A flow on its stores

The driver of a flow with the invoker of the engine. The answers of a round are those that the
invoker gives in the stores of the engine, and the stores change as the driver's calls change
them. Between two iterations the engine goes on: components call host functions, as a source
does that is told of backpressure, and other flows move elements of their own.

A buffer of the flow that the host owns is in a queue whenever an iteration begins, provided
that every call has returned, that the invoker could make it, and that every output has found
room. The invoker reclaims the input of a call only when the call returns, and the driver drops
what it cannot enqueue without releasing it.
-/
import Torvyn.Engine.Accounts
import Torvyn.Reactor.Queued

namespace Torvyn.Engine

open Reactor
open EngineState (Timed)

/-! ## The invoker on a store -/

/-- The instance of a stage: its store, and the bindings that it has been given. -/
structure Instance where
  store : ℕ
  bindings : Option WitBindings

namespace Instance

/-- The component exports `process`. -/
def exportsProcess (i : Instance) : Bool :=
  i.bindings = some .transform ∨ i.bindings = some .managedTransform

/-- The component exports `push`. -/
def exportsPush (i : Instance) : Bool := i.bindings = some .dataSink

end Instance

namespace EngineState

/-- The runtime is handed the output of a call, if there is one. -/
def receive (output : Option OutputElement) (e : EngineState) : EngineState :=
  match output with
  | none => e
  | some output => e.handIn output.payload

/-- `invoke_pull` in the store of an instance. -/
def pulled (wt : Wasmtime) (i : Instance) (componentId : ComponentId)
    (guest : GuestCall (Option WitOutputElement)) (e : EngineState) :
    Answer (Option OutputElement) × EngineState :=
  let result := (e.store i.store).invokePull wt i.bindings componentId guest
  (result.1, (e.put i.store result.2).receive (Invocation.pull result.1).output?)

/-- `invoke_process` in the store of an instance. -/
def processed (wt : Wasmtime) (i : Instance) (componentId : ComponentId) (element : StreamElement)
    (guest : GuestCall WitProcessResult) (e : EngineState) : Answer ProcessResult × EngineState :=
  let result := (e.store i.store).invokeProcess wt i.bindings componentId element guest
  (result.1, ((e.handOn element.payload).put i.store result.2).receive
    (Invocation.process element result.1).output?)

/-- `invoke_push` in the store of an instance. -/
def pushed (wt : Wasmtime) (i : Instance) (componentId : ComponentId) (element : StreamElement)
    (guest : GuestCall BackpressureSignal) (e : EngineState) :
    Answer BackpressureSignal × EngineState :=
  let result := (e.store i.store).invokePush wt i.bindings componentId element guest
  (result.1, (e.handOn element.payload).put i.store result.2)

/-- What happens to the input of a call and to its store, up to the reclaim: nothing without the
export, and no reclaim in a call that has not returned. -/
def inputTrace {α : Type} (wt : Wasmtime) (s : ℕ) (element : StreamElement) (exported : Bool)
    (guest : GuestCall α) (e : EngineState) : List Timed :=
  if exported then
    match wt.place (e.stores s).table, guest.returned with
    | none, _ => [(wt, .marshal s element)]
    | some _, none => (wt, .marshal s element) :: guest.calls.map fun call => (wt, .call s call)
    | some input, some _ => inputEvents wt s element guest.calls input
  else []

end EngineState

/-! ## Rounds -/

/-- What one iteration brings: what it reads from outside, where the answers are not used, what
the components do in a call of each kind, and what happens to the engine until the next one. -/
structure HostedRound where
  outside : Round
  wasmtime : Wasmtime
  pull : GuestCall (Option WitOutputElement)
  process : GuestCall WitProcessResult
  push : GuestCall BackpressureSignal
  meanwhile : List Timed

namespace HostedRound

/-- The round with the answers of the invoker. -/
def round (r : HostedRound) (e : EngineState) (i : Instance) : Round :=
  { r.outside with
    invoker :=
      { pull := fun componentId => (e.pulled r.wasmtime i componentId r.pull).1
        process := fun componentId element =>
          (e.processed r.wasmtime i componentId element r.process).1
        push := fun componentId element =>
          (e.pushed r.wasmtime i componentId element r.push).1 } }

/-- What an event of the driver does to the engine. -/
def serve (r : HostedRound) (i : Instance) (e : EngineState) : FlowEvent → EngineState
  | .invoked componentId (.pull _) => (e.pulled r.wasmtime i componentId r.pull).2
  | .invoked componentId (.process element _) =>
    (e.processed r.wasmtime i componentId element r.process).2
  | .invoked componentId (.push element _) =>
    (e.pushed r.wasmtime i componentId element r.push).2
  | _ => e

/-- What happens to the input of a call. -/
def inputTrace (r : HostedRound) (i : Instance) (e : EngineState) : Invocation → List Timed
  | .process element _ => e.inputTrace r.wasmtime i.store element i.exportsProcess r.process
  | .push element _ => e.inputTrace r.wasmtime i.store element i.exportsPush r.push
  | _ => []

end HostedRound

/-! ## The flow -/

/-- The driver of a flow, the engine and the instances of the stages. -/
structure HostedFlow where
  driver : FlowDriver
  engine : EngineState
  instances : ℕ → Instance

namespace HostedFlow

/-- One iteration of the driver, with the calls that it makes. -/
def handle (h : HostedFlow) (r : HostedRound) : HostedFlow :=
  match h.driver.chosen r.outside with
  | none => { h with driver := h.driver.step r.outside }
  | some e =>
    let i := h.instances e.stageIndex
    let driver := h.driver.step (r.round h.engine i)
    { h with
      driver := driver
      engine := (driver.events.drop h.driver.events.length).foldl (r.serve i) h.engine }

/-- One iteration, and what happens until the next. -/
def step (h : HostedFlow) (r : HostedRound) : HostedFlow :=
  { h.handle r with engine := (h.handle r).engine.run r.meanwhile }

/-- A run. -/
def run (h : HostedFlow) (rounds : List HostedRound) : HostedFlow := rounds.foldl step h

/-- What an iteration adds to the log. -/
def logged (h : HostedFlow) (r : HostedRound) : List FlowEvent :=
  (h.handle r).driver.events.drop h.driver.events.length

/-- The call of a stage can be made and returns, and what it returns has room: the component
exports the function, the table of its store takes the input, the component returns in time, and
if it returns an element, its stage has a first output stream that is not full. -/
def SettlesAt (h : HostedFlow) (r : HostedRound) (e : StageExecution) : Prop :=
  let i := h.instances e.stageIndex
  match e.action with
  | .pullFromSource =>
    (∃ out, r.pull.returned = some (.ok (.ok (some out)))) → h.driver.HasRoom e.stageIndex
  | .processElement _ =>
    i.exportsProcess = true ∧ (r.wasmtime.place (h.engine.stores i.store).table).isSome ∧
      r.process.returned.isSome ∧
      ((∃ out, r.process.returned = some (.ok (.ok (.emit out)))) → h.driver.HasRoom e.stageIndex)
  | .pushToSink _ =>
    i.exportsPush = true ∧ (r.wasmtime.place (h.engine.stores i.store).table).isSome ∧
      r.push.returned.isSome

/-- The call of the iteration, if it makes one, can be made and returns, and what it returns has
room. -/
def Settles (h : HostedFlow) (r : HostedRound) : Prop :=
  ∀ e, h.driver.chosen r.outside = some e → h.SettlesAt r e

/-- Until the next iteration none of the flow's elements moves. -/
def Between (flowId : FlowId) (h : HostedFlow) (r : HostedRound) : Prop :=
  Guarded EngineState.next (EngineState.Elsewhere flowId) (h.handle r).engine r.meanwhile

/-- **The elements of an iteration are disposed of**: an input has been released once and has no
wrapper in the store of its component, and an output that has not been enqueued is not the
host's. -/
structure Disposed (flowId : FlowId) (h : HostedFlow) (r : HostedRound) : Prop where
  input : ∀ e, h.driver.chosen r.outside = some e → ∀ componentId call element,
    .invoked componentId call ∈ h.logged r → call.input? = some element →
    countSteps EngineState.next (EngineState.releases flowId element.payload) h.engine
        (r.inputTrace (h.instances e.stageIndex) h.engine call) = 1 ∧
      ∀ rep wrapper, ((h.handle r).engine.stores (h.instances e.stageIndex).store).table rep =
        some wrapper → wrapper.handle = element.payload → wrapper.owner ≠ .host
  output : ∀ componentId call output,
    .invoked componentId call ∈ h.logged r → call.output? = some output →
    output.payload ∈ (h.handle r).driver.inQueues ∨
      (h.handle r).engine.hostOwns flowId output.payload = false

/-- The buffers that the host owns for the flow are those of the queued elements. -/
structure Balanced (flowId : FlowId) (h : HostedFlow) : Prop where
  nodup : h.driver.inQueues.Nodup
  hostOwns_iff : ∀ handle, h.engine.hostOwns flowId handle = true ↔ handle ∈ h.driver.inQueues

end HostedFlow

/-! ## A call as events of its store -/

namespace HostState

variable {h : HostState} {wt : Wasmtime}

/-- The name of a component only appears in texts. -/
theorem reclaim_componentId (wt : Wasmtime) (rep : ℕ) (c c' : ComponentId) (h : HostState) :
    (h.reclaimInputElement wt rep c).2 = (h.reclaimInputElement wt rep c').2 := by
  unfold reclaimInputElement
  split
  · rfl
  · split <;> rfl

theorem convert_componentId (wt : Wasmtime) (out : WitOutputElement) (c c' : ComponentId)
    (h : HostState) :
    (h.convertOutputElement wt out c).2 = (h.convertOutputElement wt out c').2 ∧
      (h.convertOutputElement wt out c).1.toOption =
        (h.convertOutputElement wt out c').1.toOption := by
  unfold convertOutputElement
  split
  · exact ⟨rfl, rfl⟩
  · split <;> exact ⟨rfl, rfl⟩

end HostState

namespace EngineState

variable {e : EngineState} {wt : Wasmtime} {i : Instance} {c : ComponentId} {s : ℕ}

@[simp] theorem store_put (e : EngineState) (s : ℕ) (h : HostState) : (e.put s h).store s = h := by
  simp [store, put]

@[simp] theorem put_put (e : EngineState) (s : ℕ) (h h' : HostState) :
    (e.put s h).put s h' = e.put s h' := by
  simp [put]

/-- The calls of a component. -/
theorem run_calls (wt : Wasmtime) (s : ℕ) (calls : List HostCall) (h : HostState)
    (e : EngineState) :
    (e.put s h).run (calls.map fun call => (wt, .call s call)) = e.put s (h.calls wt calls) := by
  induction calls generalizing h with
  | nil => rfl
  | cons call calls ih =>
    have hstep : (e.put s h).next (wt, .call s call) = e.put s (h.call wt call) := by
      show (e.put s h).put s (((e.put s h).store s).call wt call) = _
      rw [store_put, put_put]
    rw [List.map_cons]
    show ((e.put s h).next (wt, .call s call)).run _ = _
    rw [hstep, ih]
    rfl

/-- What is handed out is handed to the runtime. -/
theorem step_convert (wt : Wasmtime) (s : ℕ) (out : WitOutputElement) (c : ComponentId)
    (e : EngineState) : e.step wt (.convert s out) =
      (e.put s ((e.store s).convertOutputElement wt out c).2).receive
        ((e.store s).convertOutputElement wt out c).1.toOption := by
  obtain ⟨hstate, hresult⟩ :=
    HostState.convert_componentId wt out c (e.stores s).componentId (e.store s)
  rw [hstate, hresult]
  simp only [step]
  cases (e.store s).convertOutputElement wt out (e.stores s).componentId with
  | mk result h => cases result <;> rfl

/-- The store of a call that has been handed its input. -/
def handed (s input : ℕ) (element : StreamElement) (e : EngineState) : HostState :=
  { e.store s with
    table := Function.update (e.stores s).table input (some ⟨.buffer, element.payload, .host⟩) }

/-- **A call that returns**, up to the reclaim. -/
theorem run_inputEvents (element : StreamElement) {input : ℕ}
    (hplace : wt.place (e.stores s).table = some input) (calls : List HostCall) (c : ComponentId) :
    e.run (inputEvents wt s element calls input) = (e.handOn element.payload).put s
      (((e.handed s input element).calls wt calls).reclaimInputElement wt input c).2 := by
  have hmarshal : e.step wt (.marshal s element) =
      (e.handOn element.payload).put s (e.handed s input element) := by
    rcases HostState.marshal_cases wt element (e.store s) with ⟨hnone, -⟩ | ⟨rep, hrep, -, heq⟩
    · cases hplace.symm.trans hnone
    · obtain rfl := Option.some.inj (hplace.symm.trans hrep)
      simp only [step, heq]
      rfl
  have hcalled := run_calls wt s calls (e.handed s input element) (e.handOn element.payload)
  have hrun : e.run (inputEvents wt s element calls input) =
      ((e.step wt (.marshal s element)).run (calls.map fun call => (wt, .call s call))).step wt
        (.reclaim s input) := by
    simp only [run, inputEvents, List.cons_append, List.foldl_cons, List.foldl_append,
      List.foldl_nil]
    rfl
  rw [hrun, hmarshal, hcalled]
  simp only [step, store_put, put_put]
  rw [HostState.reclaim_componentId]

/-- What happens to the input of a call that can be made and returns. -/
theorem inputTrace_of_returned {α : Type} {element : StreamElement} {exported : Bool}
    {guest : GuestCall α} {input : ℕ} (hexported : exported = true)
    (hplace : wt.place (e.stores s).table = some input) (hreturned : guest.returned.isSome) :
    e.inputTrace wt s element exported guest = inputEvents wt s element guest.calls input := by
  obtain ⟨outer, houter⟩ := Option.isSome_iff_exists.1 hreturned
  simp only [inputTrace, hexported, if_true, hplace, houter]

/-- The store of a call that has been handed its input, as the invoker has it. -/
theorem toWit_handed {element : StreamElement} {input : ℕ}
    (hplace : wt.place (e.stores s).table = some input) :
    (e.store s).toWitStreamElement wt element =
      (.ok ⟨element.metadata, input⟩, e.handed s input element) := by
  rcases HostState.marshal_cases wt element (e.store s) with ⟨hnone, -⟩ | ⟨rep, hrep, -, heq⟩
  · cases hplace.symm.trans hnone
  · obtain rfl := Option.some.inj (hplace.symm.trans hrep)
    exact heq

/-- How a call ends: with what happened to its input, or with an output that is handed out. -/
inductive Ended (wt : Wasmtime) (s : ℕ) (e' : EngineState) (emitted : Option WitOutputElement)
    (output : Option OutputElement) (after : EngineState) : Prop
  | nothing : output = none → after = e' → Ended wt s e' emitted output after
  | handedOut (out : WitOutputElement) : emitted = some out →
      after = e'.step wt (.convert s out) →
      output = ((e'.store s).convertOutputElement wt out (e'.stores s).componentId).1.toOption →
      Ended wt s e' emitted output after

/-- The end of a call whose output is converted. -/
theorem Ended.convert {e' : EngineState} {out : WitOutputElement} {output : Option OutputElement}
    {h : HostState} (c : ComponentId)
    (houtput : output = ((e'.store s).convertOutputElement wt out c).1.toOption)
    (hstate : h = ((e'.store s).convertOutputElement wt out c).2) :
    Ended wt s e' (some out) output ((e'.put s h).receive output) := by
  refine .handedOut out rfl ?_ ?_
  · rw [step_convert wt s out c, hstate, houtput]
  · rw [houtput]
    exact (HostState.convert_componentId wt out c _ _).2

/-- What a `process` that has returned emits. -/
def processEmitted (guest : GuestCall WitProcessResult) : Option WitOutputElement :=
  match guest.returned with
  | some (.ok (.ok (.emit out))) => some out
  | _ => none

/-- **A `process` that returns** reclaims its input, and hands out what it emits. -/
theorem processed_ended (element : StreamElement) {guest : GuestCall WitProcessResult} {input : ℕ}
    (hexports : i.exportsProcess = true) (hplace : wt.place (e.stores i.store).table = some input)
    (hreturned : guest.returned.isSome) (c : ComponentId) :
    Ended wt i.store (e.run (inputEvents wt i.store element guest.calls input)) (processEmitted guest)
      (Invocation.process element (e.processed wt i c element guest).1).output?
      (e.processed wt i c element guest).2 := by
  have hbindings : ¬(i.bindings ≠ some .transform ∧ i.bindings ≠ some .managedTransform) := by
    rw [Instance.exportsProcess, decide_eq_true_eq] at hexports
    tauto
  obtain ⟨outer, houter⟩ := Option.isSome_iff_exists.1 hreturned
  have hrun := run_inputEvents element hplace guest.calls c
  set e' := e.run (inputEvents wt i.store element guest.calls input)
  simp only [processed, HostState.invokeProcess, if_neg hbindings, toWit_handed hplace, houter,
    processEmitted]
  generalize HostState.reclaimInputElement wt input c
    ((e.handed i.store input element).calls wt guest.calls) = reclaimed at hrun
  obtain ⟨result, h⟩ := reclaimed
  cases outer with
  | error err => exact .nothing rfl hrun.symm
  | ok inner =>
    cases result with
    | error err => exact .nothing rfl hrun.symm
    | ok =>
      cases inner with
      | error err => exact .nothing rfl hrun.symm
      | ok answer =>
        cases answer with
        | drop => exact .nothing rfl hrun.symm
        | emit out =>
          have hstore : e'.store i.store = h := by rw [hrun, store_put]
          have hput : ∀ h' : HostState, (e.handOn element.payload).put i.store h' =
              e'.put i.store h' := fun h' => by rw [hrun, put_put]
          dsimp only
          cases hconvert : h.convertOutputElement wt out c with
          | mk converted h' =>
            have houtput := @Ended.convert wt i.store e' out converted.toOption h' c
              (by rw [hstore, hconvert]) (by rw [hstore, hconvert])
            cases converted with
            | error err =>
              dsimp only
              rw [hput]
              exact houtput
            | ok output =>
              dsimp only
              rw [hput]
              exact houtput

/-- A component returns one element at most. -/
theorem processed_single (element : StreamElement) (guest : GuestCall WitProcessResult)
    (c : ComponentId) (outputs : List OutputElement) :
    (e.processed wt i c element guest).1 ≠ .ok (.multiple outputs) := by
  simp only [processed, HostState.invokeProcess]
  split
  · simp
  · split
    · simp
    · split
      · simp
      · split
        · simp
        · simp
        · simp
        · simp
        · split <;> simp

/-- **A `push` that returns** reclaims its input. -/
theorem pushed_ended (element : StreamElement) {guest : GuestCall BackpressureSignal} {input : ℕ}
    (hexports : i.exportsPush = true) (hplace : wt.place (e.stores i.store).table = some input)
    (hreturned : guest.returned.isSome) (c : ComponentId) :
    (e.pushed wt i c element guest).2 =
      e.run (inputEvents wt i.store element guest.calls input) := by
  have hbindings : ¬i.bindings ≠ some .dataSink := by
    rw [Instance.exportsPush, decide_eq_true_eq] at hexports
    exact not_not.2 hexports
  obtain ⟨outer, houter⟩ := Option.isSome_iff_exists.1 hreturned
  rw [run_inputEvents element hplace guest.calls c]
  simp only [pushed, HostState.invokePush, if_neg hbindings, toWit_handed hplace, houter]
  generalize HostState.reclaimInputElement wt input c
    ((e.handed i.store input element).calls wt guest.calls) = reclaimed
  obtain ⟨result, h⟩ := reclaimed
  cases outer with
  | error err => rfl
  | ok inner =>
    cases result with
    | error err => rfl
    | ok => cases inner <;> rfl

/-- What a `pull` that has returned emits. -/
def pullEmitted (guest : GuestCall (Option WitOutputElement)) : Option WitOutputElement :=
  match guest.returned with
  | some (.ok (.ok out)) => out
  | _ => none

/-- **A `pull`** hands out what it emits. -/
theorem pulled_ended (wt : Wasmtime) (i : Instance) (c : ComponentId)
    (guest : GuestCall (Option WitOutputElement)) (e : EngineState) :
    ∃ calls : List HostCall,
      Ended wt i.store (e.run (calls.map fun call => (wt, .call i.store call)))
        (pullEmitted guest) (Invocation.pull (e.pulled wt i c guest).1).output?
        (e.pulled wt i c guest).2 := by
  by_cases hbindings : i.bindings = some .dataSource
  · refine ⟨guest.calls, ?_⟩
    have hrun := run_calls wt i.store guest.calls (e.store i.store) e
    rw [put_store] at hrun
    set e' := e.run (guest.calls.map fun call => (wt, .call i.store call))
    simp only [pulled, HostState.invokePull, hbindings, ne_eq, not_true_eq_false, if_false,
      pullEmitted]
    cases guest.returned with
    | none => exact .nothing rfl hrun.symm
    | some outer =>
      cases outer with
      | error err => exact .nothing rfl hrun.symm
      | ok inner =>
        cases inner with
        | error err => exact .nothing rfl hrun.symm
        | ok out =>
          cases out with
          | none => exact .nothing rfl hrun.symm
          | some out =>
            have hstore : e'.store i.store = (e.store i.store).calls wt guest.calls := by
              rw [hrun, store_put]
            have hput : ∀ h' : HostState, e.put i.store h' = e'.put i.store h' := fun h' => by
              rw [hrun, put_put]
            dsimp only
            cases hconvert :
              ((e.store i.store).calls wt guest.calls).convertOutputElement wt out c with
            | mk converted h' =>
              have houtput := @Ended.convert wt i.store e' out converted.toOption h' c
                (by rw [hstore, hconvert]) (by rw [hstore, hconvert])
              cases converted with
              | error err =>
                dsimp only
                rw [hput]
                exact houtput
              | ok output =>
                dsimp only
                rw [hput]
                exact houtput
  · refine ⟨[], ?_⟩
    simp only [pulled, HostState.invokePull, ne_eq, hbindings, not_false_eq_true, if_true]
    exact .nothing rfl (put_store e i.store)

/-! ## What a call leaves accounted for -/

section Accounted

variable {flowId : FlowId} {queue : List BufferHandle} {output : Option OutputElement}
  {emitted : Option WitOutputElement} {after : EngineState}

/-- The output of a call is accounted for. -/
theorem Accounted.ended (h : Accounted flowId queue none e)
    (hflow : (e.stores s).flowId = flowId) (hended : Ended wt s e emitted output after) :
    Accounted flowId ((output.map OutputElement.payload).toList ++ queue) none after := by
  cases hended with
  | nothing houtput hafter =>
    rw [houtput, hafter]
    exact h
  | handedOut out _ hafter houtput =>
    have hconvert := h.convert (s := s) wt out
    rw [handedOut, if_pos hflow, ← houtput, ← hafter] at hconvert
    exact hconvert

theorem Accounted.pulled (h : Accounted flowId queue none e) (i : Instance)
    (hflow : (e.stores i.store).flowId = flowId) (c : ComponentId)
    (guest : GuestCall (Option WitOutputElement)) :
    Accounted flowId
      (((Invocation.pull (e.pulled wt i c guest).1).output?.map OutputElement.payload).toList ++
        queue) none (e.pulled wt i c guest).2 := by
  obtain ⟨calls, hended⟩ := pulled_ended wt i c guest e
  have hcalls : Guarded next (Elsewhere flowId) e
      (calls.map fun call => (wt, .call i.store call)) := by
    clear hended hflow h
    induction calls generalizing e with
    | nil => trivial
    | cons call calls ih => exact ⟨trivial, ih⟩
  refine (h.run_elsewhere hcalls).ended ?_ hended
  rw [flowId_run, hflow]

theorem Accounted.perm {input : Option (ℕ × ℕ)} {queue' : List BufferHandle}
    (h : Accounted flowId queue input e) (hperm : queue.Perm queue') :
    Accounted flowId queue' input e :=
  ⟨h.backed, h.ofFlow, hperm.nodup_iff.1 h.nodup,
    fun handle hmem => h.queued handle (hperm.mem_iff.2 hmem),
    fun handle howns => (h.settled handle howns).imp_left hperm.mem_iff.1⟩

theorem Ended.flowId_eq {e' : EngineState} (hended : Ended wt s e' emitted output after) (s' : ℕ) :
    (after.stores s').flowId = (e'.stores s').flowId := by
  cases hended with
  | nothing _ hafter => rw [hafter]
  | handedOut out _ hafter => rw [hafter, flowId_step]

end Accounted

end EngineState

namespace HostedFlow

open EngineState

variable {h : HostedFlow} {r : HostedRound} {flowId : FlowId}

/-! ## Every iteration -/

/-- What a call leaves: what is queued is accounted for, the input has been released once, and
every store is still with its flow. -/
structure Served (flowId : FlowId) (e e' : EngineState) (call : Invocation) (trace : List Timed)
    (rest : List BufferHandle) : Prop where
  accounted : Accounted flowId
    ((call.output?.map OutputElement.payload).toList ++ rest) none e'
  released : ∀ element, call.input? = some element →
    countSteps next (releases flowId element.payload) e trace = 1
  flowId_eq : ∀ s, (e'.stores s).flowId = (e.stores s).flowId

/-- **A call that settles** takes its input and hands out its output. -/
theorem served {e : StageExecution} {call : Invocation} {rest : List BufferHandle}
    (hsettles : h.SettlesAt r e)
    (hflow : (h.engine.stores (h.instances e.stageIndex).store).flowId = flowId)
    (hasks : FlowDriver.Asks (r.round h.engine (h.instances e.stageIndex)) e call)
    (haccounted : Accounted flowId
      ((call.input?.map StreamElement.payload).toList ++ rest) none h.engine) :
    Served flowId h.engine
      (r.serve (h.instances e.stageIndex) h.engine (.invoked e.componentId call)) call
      (r.inputTrace (h.instances e.stageIndex) h.engine call) rest := by
  set i := h.instances e.stageIndex
  obtain ⟨c, v, action⟩ := e
  cases action with
  | pullFromSource =>
    cases call with
    | pull answer =>
      obtain rfl : answer = (h.engine.pulled r.wasmtime i c r.pull).1 := hasks
      obtain ⟨calls, hended⟩ := pulled_ended r.wasmtime i c r.pull h.engine
      refine ⟨haccounted.pulled i hflow c r.pull, fun _ hnone => ?_, fun s => ?_⟩
      · cases hnone
      · exact (hended.flowId_eq s).trans (flowId_run _ _ s)
    | process | push | notifyBackpressure => cases hasks
  | processElement id =>
    cases call with
    | process element answer =>
      obtain rfl : answer = (h.engine.processed r.wasmtime i c element r.process).1 := hasks
      obtain ⟨hexports, hplace, hreturned, -⟩ := hsettles
      obtain ⟨input, hinput⟩ := Option.isSome_iff_exists.1 hplace
      obtain ⟨hrest, hcount⟩ := haccounted.input hflow hinput r.process.calls
      have hended := processed_ended element hexports hinput hreturned c
      refine ⟨hrest.ended ?_ hended, fun _ hsome => ?_, fun s => ?_⟩
      · rw [flowId_run, hflow]
      · obtain rfl := Option.some.inj hsome
        exact (congrArg _ (inputTrace_of_returned hexports hinput hreturned)).trans hcount
      · exact (hended.flowId_eq s).trans (flowId_run _ _ s)
    | pull | push | notifyBackpressure => cases hasks
  | pushToSink id =>
    cases call with
    | push element answer =>
      obtain ⟨hexports, hplace, hreturned⟩ := hsettles
      obtain ⟨input, hinput⟩ := Option.isSome_iff_exists.1 hplace
      obtain ⟨hrest, hcount⟩ := haccounted.input hflow hinput r.push.calls
      have hended := pushed_ended element hexports hinput hreturned c
      refine ⟨?_, fun _ hsome => ?_, fun s => ?_⟩
      · show Accounted flowId _ none (h.engine.pushed r.wasmtime i c element r.push).2
        rw [hended]
        exact hrest
      · obtain rfl := Option.some.inj hsome
        exact (congrArg _ (inputTrace_of_returned hexports hinput hreturned)).trans hcount
      · show ((h.engine.pushed r.wasmtime i c element r.push).2.stores s).flowId = _
        rw [hended, flowId_run]
    | pull | process | notifyBackpressure => cases hasks

/-- What a stage returns has room, and it returns one element. -/
theorem placeable {e : StageExecution} (hsettles : h.SettlesAt r e) :
    h.driver.Placeable (r.round h.engine (h.instances e.stageIndex)) e where
  room call hasks houtput := by
    obtain ⟨c, v, action⟩ := e
    cases action with
    | pullFromSource =>
      cases call with
      | pull answer =>
        obtain rfl : answer = (h.engine.pulled r.wasmtime (h.instances v) c r.pull).1 := hasks
        obtain ⟨calls, hended⟩ := pulled_ended r.wasmtime (h.instances v) c r.pull h.engine
        cases hended with
        | nothing hnone => exact absurd hnone houtput
        | handedOut out hemitted =>
          refine hsettles ⟨out, ?_⟩
          unfold pullEmitted at hemitted
          split at hemitted
          · rename_i hreturned
            rw [hreturned, hemitted]
          · cases hemitted
      | process | push | notifyBackpressure => cases hasks
    | processElement id =>
      cases call with
      | process element answer =>
        obtain rfl : answer =
          (h.engine.processed r.wasmtime (h.instances v) c element r.process).1 := hasks
        obtain ⟨hexports, hplace, hreturned, hroom⟩ := hsettles
        obtain ⟨input, hinput⟩ := Option.isSome_iff_exists.1 hplace
        have hended := processed_ended element hexports hinput hreturned c
        cases hended with
        | nothing hnone => exact absurd hnone houtput
        | handedOut out hemitted =>
          refine hroom ⟨out, ?_⟩
          unfold processEmitted at hemitted
          split at hemitted
          · rename_i hemit
            rw [hemit, Option.some.inj hemitted]
          · cases hemitted
      | pull | push | notifyBackpressure => cases hasks
    | pushToSink id =>
      cases call with
      | push element answer => exact absurd rfl houtput
      | pull | process | notifyBackpressure => cases hasks
  single element outputs := processed_single element r.process e.componentId outputs

/-- Only calls change the engine. -/
theorem foldl_serve {more : List FlowEvent} (hmore : ∀ ev ∈ more, ev.isCall = false) (i : Instance)
    (e : EngineState) : more.foldl (r.serve i) e = e := by
  induction more with
  | nil => rfl
  | cons ev more ih =>
    obtain ⟨hev, hrest⟩ := List.forall_mem_cons.1 hmore
    have hserve : r.serve i e ev = e := by
      cases ev with
      | invoked component call =>
        cases call with
        | notifyBackpressure => rfl
        | pull | process | push => cases hev
      | _ => rfl
    rw [List.foldl_cons, hserve, ih hrest]

/-- No call is logged among what makes no call. -/
theorem not_mem_calls {more : List FlowEvent} (hmore : ∀ ev ∈ more, ev.isCall = false)
    {c : ComponentId} {call : Invocation} (hmem : .invoked c call ∈ more) :
    call.input? = none ∧ call.output? = none := by
  have hcall := hmore _ hmem
  cases call with
  | notifyBackpressure => exact ⟨rfl, rfl⟩
  | pull | process | push => cases hcall

/-- The invariant of a run: the stages' stores are those of the flow, and until the run has ended
its buffers are accounted for. -/
structure Kept (flowId : FlowId) (h : HostedFlow) : Prop where
  ofFlow : ∀ v, (h.engine.stores (h.instances v).store).flowId = flowId
  accounted : h.driver.state.isTerminal = false →
    Accounted flowId h.driver.inQueues none h.engine

/-- A driver that has not ended had not ended before. -/
theorem live_of_step {d : FlowDriver} {r : Round} (hlive : (d.step r).state.isTerminal = false) :
    d.state.isTerminal = false := by
  by_contra hterminal
  rw [Bool.not_eq_false] at hterminal
  have hrun : d.state ≠ .running := by
    rintro hrun
    rw [hrun] at hterminal
    cases hterminal
  have hdrain : d.state ≠ .draining := by
    rintro hdrain
    rw [hdrain] at hterminal
    cases hterminal
  rw [FlowDriver.step_of_not_live hrun hdrain, hterminal] at hlive
  cases hlive

/-- A log that grows by events that are no calls. -/
theorem logged_calls {more : List FlowEvent} (hlogged : h.logged r = more)
    (hmore : ∀ ev ∈ more, ev.isCall = false) : Disposed flowId h r where
  input e _ c call element hmem hinput := by
    rw [hlogged] at hmem
    cases (not_mem_calls hmore hmem).1.symm.trans hinput
  output c call output hmem houtput := by
    rw [hlogged] at hmem
    cases (not_mem_calls hmore hmem).2.symm.trans houtput

/-- An iteration that executes no stage. -/
theorem Kept.handle_unchosen (hkept : h.Kept flowId) (hchosen : h.driver.chosen r.outside = none) :
    (h.handle r).Kept flowId ∧ Disposed flowId h r := by
  have hhandle : h.handle r = { h with driver := h.driver.step r.outside } := by
    simp only [HostedFlow.handle, hchosen]
  obtain ⟨more, hevents, hmore⟩ := FlowDriver.calls_unchosen hchosen
  refine ⟨?_, logged_calls ?_ hmore⟩
  · rw [hhandle]
    refine ⟨hkept.ofFlow, fun hlive => ?_⟩
    show Accounted flowId (h.driver.step r.outside).inQueues none h.engine
    rw [FlowDriver.inQueues_unchosen hchosen hlive]
    exact hkept.accounted (live_of_step hlive)
  · rw [logged, hhandle]
    show (h.driver.step r.outside).events.drop _ = _
    rw [hevents, List.drop_left]

/-- An iteration that executes a stage whose call settles. -/
theorem Kept.handle_chosen {e : StageExecution} (hkept : h.Kept flowId)
    (hchosen : h.driver.chosen r.outside = some e) (hsettles : h.SettlesAt r e) :
    (h.handle r).Kept flowId ∧ Disposed flowId h r := by
  set i := h.instances e.stageIndex with hi
  have hlive : h.driver.state.isTerminal = false := by
    rcases (FlowDriver.ready_of_chosen hchosen).1 with hstate | hstate <;>
    · rw [hstate]
      rfl
  have haccounted := hkept.accounted hlive
  have hflow : (h.engine.stores i.store).flowId = flowId := hkept.ofFlow e.stageIndex
  have hhandle : h.handle r = { h with
      driver := h.driver.step (r.round h.engine i)
      engine := (h.logged r).foldl (r.serve i) h.engine } := by
    simp only [HostedFlow.handle, logged, hchosen, hi]
  have hlogged : h.logged r =
      (h.driver.step (r.round h.engine i)).events.drop h.driver.events.length := by
    simp only [logged, HostedFlow.handle, hchosen, hi]
  cases @FlowDriver.step_exchanged h.driver (r.round h.engine i) e hchosen (placeable hsettles) with
  | idle more hevents hmore hqueued =>
    have hsame : h.logged r = more := by rw [hlogged, hevents, List.drop_left]
    refine ⟨?_, logged_calls hsame hmore⟩
    rw [hhandle, hsame, foldl_serve hmore]
    exact ⟨hkept.ofFlow, fun _ => haccounted.perm hqueued.symm⟩
  | called call rest more hasks hevents hmore hbefore hafter =>
    have hsame : h.logged r = .invoked e.componentId call :: more := by
      rw [hlogged, hevents, List.drop_left]
    have hserved := served hsettles hflow hasks (haccounted.perm hbefore)
    rw [hsame, List.foldl_cons, foldl_serve hmore] at hhandle
    have hqueue := hserved.accounted.perm hafter.symm
    refine ⟨?_, ?_, ?_⟩
    · rw [hhandle]
      exact ⟨fun v => (hserved.flowId_eq _).trans (hkept.ofFlow v), fun _ => hqueue⟩
    · intro e' hchosen' c call' element hmem hinput
      obtain rfl := Option.some.inj (hchosen.symm.trans hchosen')
      rw [hsame] at hmem
      rcases List.mem_cons.1 hmem with heq | hmem
      · obtain ⟨-, rfl⟩ := FlowEvent.invoked.inj heq
        refine ⟨hserved.released element hinput, fun rep wrapper hrep hhandle' => ?_⟩
        have hqueued : element.payload ∈ h.driver.inQueues := by
          rw [hbefore.mem_iff, hinput]
          exact List.mem_cons_self
        obtain ⟨-, entry, hget, -⟩ := haccounted.queued _ hqueued
        rw [hhandle] at hrep
        refine hqueue.not_host ((hserved.flowId_eq _).trans hflow) hrep ?_
        rw [hhandle']
        exact haccounted.backed.ne_sentinel hget
      · cases (not_mem_calls hmore hmem).1.symm.trans hinput
    · intro c call' output hmem houtput
      rw [hsame] at hmem
      rcases List.mem_cons.1 hmem with heq | hmem
      · obtain ⟨-, rfl⟩ := FlowEvent.invoked.inj heq
        refine .inl ?_
        rw [hhandle]
        show output.payload ∈ (h.driver.step (r.round h.engine i)).inQueues
        rw [hafter.mem_iff, houtput]
        exact List.mem_cons_self
      · cases (not_mem_calls hmore hmem).2.symm.trans houtput

/-- **An iteration that settles** disposes of its elements and keeps the invariant. -/
theorem Kept.handle (hkept : h.Kept flowId) (hsettles : h.Settles r) :
    (h.handle r).Kept flowId ∧ Disposed flowId h r := by
  cases hchosen : h.driver.chosen r.outside with
  | none => exact hkept.handle_unchosen hchosen
  | some e => exact hkept.handle_chosen hchosen (hsettles e hchosen)

/-- What happens between two iterations keeps the invariant. -/
theorem Kept.step (hkept : h.Kept flowId) (hsettles : h.Settles r)
    (hbetween : h.Between flowId r) : (h.step r).Kept flowId := by
  have hhandle := (hkept.handle hsettles).1
  have hinstances : (h.handle r).instances = h.instances := by
    unfold HostedFlow.handle
    split <;> rfl
  refine ⟨fun v => ?_, fun hlive => (hhandle.accounted hlive).run_elsewhere hbetween⟩
  show (((h.handle r).engine.run r.meanwhile).stores _).flowId = flowId
  rw [flowId_run]
  exact hhandle.ofFlow v

/-- Buffers that are accounted for are balanced. -/
theorem Kept.balanced (hkept : h.Kept flowId) (hlive : h.driver.state.isTerminal = false) :
    h.Balanced flowId where
  nodup := (hkept.accounted hlive).nodup
  hostOwns_iff handle := by
    refine ⟨fun howns => ?_, fun hmem => (hkept.accounted hlive).hostOwns hmem⟩
    rcases (hkept.accounted hlive).settled handle howns with hmem | ⟨_, _, hnone, _⟩
    · exact hmem
    · cases hnone

end HostedFlow

/-! ## Runs -/

/-- A flow when its main loop begins, on an engine that is in use. The flow is new: none of the
buffers of the manager is the flow's, and since the stores were made none of its elements has
moved. -/
structure HostedStart where
  flow : BuiltFlow
  engine : StartedEngine
  instances : ℕ → Instance
  before : List Timed
  ofFlow : ∀ v, (engine.stores (instances v).store).flowId = flow.flowId
  fresh : ∀ handle entry, engine.start.resources.table.get handle = .ok entry →
    entry.flowId ≠ flow.flowId
  elsewhere : Guarded EngineState.next (EngineState.Elsewhere flow.flowId) engine.start before

namespace HostedStart

open EngineState HostedFlow

/-- The flow when its main loop begins. -/
def start (f : HostedStart) : HostedFlow := ⟨f.flow.start, f.engine.start.run f.before, f.instances⟩

/-- At the start nothing is queued, and nothing is the host's. -/
theorem kept_start (f : HostedStart) : f.start.Kept f.flow.flowId where
  ofFlow v := by
    show ((f.engine.start.run f.before).stores _).flowId = _
    rw [flowId_run]
    exact f.ofFlow v
  accounted _ := by
    show Accounted f.flow.flowId f.flow.start.inQueues none (f.engine.start.run f.before)
    rw [FlowDriver.inQueues_start]
    have hstart : Accounted f.flow.flowId [] none f.engine.start := by
      refine ⟨f.engine.backed_start, fun s rep wrapper entry hrep => ?_, List.nodup_nil,
        fun handle hmem => ?_, fun handle howns => ?_⟩
      · cases (f.engine.empty s rep).symm.trans hrep
      · cases hmem
      · obtain ⟨entry, hget, -, hflow⟩ := hostOwns_iff.1 howns
        exact absurd hflow (f.fresh handle entry hget)
    exact hstart.run_elsewhere f.elsewhere

/-- **Buffers are conserved** in every run whose calls settle: each iteration disposes of its
elements, and whenever an iteration begins, the live buffers that the host owns for the flow are
those of the queued elements. -/
theorem buffers_conserved (f : HostedStart) (rounds : List HostedRound)
    (hrounds : Guarded HostedFlow.step
      (fun h r => h.Settles r ∧ h.Between f.flow.flowId r) f.start rounds) :
    Guarded HostedFlow.step (Disposed f.flow.flowId) f.start rounds ∧
      ((f.start.run rounds).driver.state.isTerminal = false →
        (f.start.run rounds).Balanced f.flow.flowId) := by
  have hstep : ∀ (h : HostedFlow) (r : HostedRound),
      h.Settles r ∧ h.Between f.flow.flowId r → h.Kept f.flow.flowId →
        (h.step r).Kept f.flow.flowId :=
    fun h r hround hkept => hkept.step hround.1 hround.2
  refine ⟨?_, (hrounds.invariant hstep f.kept_start).balanced⟩
  refine (hrounds.with_invariant hstep f.kept_start).mono ?_
  rintro h r ⟨⟨hsettles, -⟩, hkept⟩
  exact (hkept.handle hsettles).2

/-- A source and a sink, under a policy that lets the flow go on after an error. -/
def tolerantFlow : BuiltFlow where
  flowId := ⟨0⟩
  config := { smallConfig [.source, .sink] [(0, 1)] 2 with errorPolicy := .logAndContinue }
  streams := (spawnStreams ⟨0⟩
    { smallConfig [.source, .sink] [(0, 1)] 2 with errorPolicy := .logAndContinue }).get (by decide)
  startedAt := 0
  wallClock := 0
  built := (Option.some_get _).symm

/-- The flow on an engine that has not been used, with one store for each stage. -/
def tolerantStart : HostedStart where
  flow := tolerantFlow
  engine := .unused StartedManager.startedSmallPool
  instances v := ⟨v, if v = 0 then some .dataSource else some .dataSink⟩
  before := []
  ofFlow _ := rfl
  fresh handle entry hget := by
    have hempty : (StartedEngine.unused StartedManager.startedSmallPool).start.resources.table.iter =
        [] := by decide
    have hmem := ResourceTable.get_eq_ok.1 hget
    rw [hempty] at hmem
    cases hmem
  elsewhere := trivial

/-- The source writes a buffer, freezes it and returns it; the sink does nothing with its input
before it returns, if it does. -/
def oneByte (pushed : Option (Except WasmError (Except ProcessError BackpressureSignal))) :
    HostedRound where
  outside := quietRound (forwarding 1)
  wasmtime := StartedEngine.firstFree
  pull := ⟨[.allocate .bump 10, .write 0 0 [7], .freeze 0],
    some (.ok (.ok (some ⟨⟨0, 0, ""⟩, 1⟩)))⟩
  process := ⟨[], none⟩
  push := ⟨[], pushed⟩
  meanwhile := []

/-- When the sink returns, its input has been released and nothing is left. -/
theorem buffers_conserved_oneByte :
    Guarded HostedFlow.step (fun h r => h.Settles r ∧ h.Between ⟨0⟩ r) tolerantStart.start
        [oneByte (some (.ok (.ok .ready))), oneByte (some (.ok (.ok .ready)))] ∧
      Guarded HostedFlow.step (Disposed ⟨0⟩) tolerantStart.start
        [oneByte (some (.ok (.ok .ready))), oneByte (some (.ok (.ok .ready)))] ∧
      (tolerantStart.start.run
        [oneByte (some (.ok (.ok .ready))), oneByte (some (.ok (.ok .ready)))]).Balanced ⟨0⟩ := by
  have hpull : tolerantStart.start.Settles (oneByte (some (.ok (.ok .ready)))) := by
    intro e hchosen
    have hsource : tolerantStart.start.driver.chosen (oneByte (some (.ok (.ok .ready)))).outside =
        some ⟨⟨0⟩, 0, .pullFromSource⟩ := by decide
    obtain rfl := Option.some.inj (hsource.symm.trans hchosen)
    exact fun _ => ⟨0, _, rfl, rfl, by decide⟩
  have hpush : (tolerantStart.start.step (oneByte (some (.ok (.ok .ready))))).Settles
      (oneByte (some (.ok (.ok .ready)))) := by
    intro e hchosen
    have hsink : (tolerantStart.start.step (oneByte (some (.ok (.ok .ready))))).driver.chosen
        (oneByte (some (.ok (.ok .ready)))).outside = some ⟨⟨1⟩, 1, .pushToSink ⟨0⟩⟩ := by decide
    obtain rfl := Option.some.inj (hsink.symm.trans hchosen)
    exact ⟨rfl, by decide, rfl⟩
  have hrounds : Guarded HostedFlow.step (fun h r => h.Settles r ∧ h.Between ⟨0⟩ r)
      tolerantStart.start
      [oneByte (some (.ok (.ok .ready))), oneByte (some (.ok (.ok .ready)))] :=
    ⟨⟨hpull, trivial⟩, ⟨hpush, trivial⟩, trivial⟩
  have hconserved := buffers_conserved tolerantStart _ hrounds
  exact ⟨hrounds, hconserved.1, hconserved.2 (by decide)⟩

/-- When the sink does not return in time, the buffer of its input stays with the host, in no
queue, and the wrapper stays in the store of the sink. -/
theorem buffer_kept_by_timeout :
    Guarded HostedFlow.step (Between ⟨0⟩) tolerantStart.start [oneByte none, oneByte none] ∧
      (tolerantStart.start.run [oneByte none, oneByte none]).driver.state = .running ∧
      ((tolerantStart.start.run [oneByte none, oneByte none]).engine.stores 1).table 0 =
        some ⟨.buffer, ⟨⟨0, 1⟩⟩, .host⟩ ∧
      ¬(tolerantStart.start.run [oneByte none, oneByte none]).Balanced ⟨0⟩ ∧
      ¬Guarded HostedFlow.step (Disposed ⟨0⟩) tolerantStart.start
        [oneByte none, oneByte none] := by
  refine ⟨⟨trivial, trivial, trivial⟩, by decide, by decide, fun hbalanced => ?_, ?_⟩
  · have hqueued := (hbalanced.hostOwns_iff ⟨⟨0, 1⟩⟩).1 (by decide)
    exact absurd hqueued (by decide)
  · rintro ⟨-, hdisposed, -⟩
    have hreleased := (hdisposed.input ⟨⟨1⟩, 1, .pushToSink ⟨0⟩⟩ (by decide) ⟨1⟩
      (.push ⟨⟨0, 0, ""⟩, ⟨⟨0, 1⟩⟩⟩ .timeout) ⟨⟨0, 0, ""⟩, ⟨⟨0, 1⟩⟩⟩
      (@List.mem_of_getElem? _ _ 0 _ rfl) rfl).1
    exact absurd hreleased (by decide)

end HostedStart

end Torvyn.Engine
