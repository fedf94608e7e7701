/-
# The invoker

`wasmtime_invoker.rs`: how an element crosses into a store and out of it again, and the calls
of `pull`, `process` and `push`. What a component does during a call is given by the host
functions it calls and by how the call ends, if it ends before the invocation times out: a
timeout drops the invocation where the component stands.

Fuel and the flow context are left out. The errors of `types.wit` and of the domain are in
one-to-one correspondence, and are one type here.
-/
import Torvyn.Engine.HostState
import Torvyn.Reactor.Flow

namespace Torvyn.Engine

open Reactor (Answer)

/-! ## Elements inside a store -/

/-- The WIT record `output-element`: the payload is a representation of the store. -/
structure WitOutputElement where
  metadata : ElementMeta
  payload : ℕ
  deriving DecidableEq, Repr

/-- The WIT record `stream-element`; the payload is borrowed. -/
structure WitStreamElement where
  metadata : ElementMeta
  payload : ℕ
  deriving DecidableEq, Repr

namespace HostState

/-- `convert_output_element`: the wrapper leaves the table and the buffer goes to the host. -/
def convertOutputElement (wt : Wasmtime) (out : WitOutputElement) (componentId : ComponentId)
    (h : HostState) : Except ProcessError OutputElement × HostState :=
  match h.table.delete .buffer out.payload with
  | .error e =>
    let text := wt.errorText e
    (.error (.internal
      s!"Component {componentId} returned an unknown buffer resource: {text}"), h)
  | .ok (entry, table) =>
    match h.resources.transferOwnership entry.handle entry.owner .host with
    | (.error e, resources) =>
      (.error (.internal s!"Component {componentId} → host buffer transfer failed: {e}"),
        { h with table := table, resources := resources })
    | (.ok (), resources) =>
      (.ok ⟨out.metadata, entry.handle⟩, { h with table := table, resources := resources })

/-- `to_wit_stream_element`: the store gets a wrapper of a buffer that the host owns. -/
def toWitStreamElement (wt : Wasmtime) (element : StreamElement) (h : HostState) :
    Except ResourceTableError WitStreamElement × HostState :=
  match h.table.push wt ⟨.buffer, element.payload, .host⟩ with
  | .error e => (.error e, h)
  | .ok (rep, table) => (.ok ⟨element.metadata, rep⟩, { h with table := table })

/-- `reclaim_input_element`: the wrapper leaves the table and the buffer goes to its pool. -/
def reclaimInputElement (wt : Wasmtime) (inputRep : ℕ) (componentId : ComponentId)
    (h : HostState) : Except ProcessError Unit × HostState :=
  match h.table.delete .buffer inputRep with
  | .error e =>
    let text := wt.errorText e
    (.error (.internal
      s!"Component {componentId}: input buffer resource missing at reclaim: {text}"), h)
  | .ok (entry, table) =>
    match h.resources.release entry.handle entry.owner with
    | (.error e, resources) =>
      (.error (.internal s!"Component {componentId}: input buffer release failed: {e}"),
        { h with table := table, resources := resources })
    | (.ok (), resources) => (.ok (), { h with table := table, resources := resources })

end HostState

/-! ## Calls into a component -/

/-- How a call into a component fails: without fuel, by another trap or by an error of the
host, such as a host function that traps. -/
inductive WasmError where
  | outOfFuel
  | trap (text : String)
  | other (text : String)
  deriving DecidableEq, Repr

/-- `convert_wasm_error`. -/
def convertWasmError (e : WasmError) (componentId : ComponentId) (functionName : String) :
    ProcessError :=
  match e with
  | .outOfFuel => .deadlineExceeded
  | .trap text => .fatal s!"Component {componentId} trapped in '{functionName}': {text}"
  | .other text => .internal s!"Component {componentId} error in '{functionName}': {text}"

/-- What a component does in one call: the host functions it calls, in order, and what the
call returns. `none`: the call has not returned when the invocation times out. -/
structure GuestCall (α : Type) where
  calls : List HostCall
  returned : Option (Except WasmError (Except ProcessError α))

/-- The WIT variant `process-result`. -/
inductive WitProcessResult where
  | emit (out : WitOutputElement)
  | drop
  deriving DecidableEq, Repr

/-- The world whose bindings an instance has. -/
inductive WitBindings where
  | dataSink
  | dataSource
  | transform
  | managedTransform
  deriving DecidableEq, Repr

namespace HostState

/-- The host functions that a component calls, one after another. -/
def calls (wt : Wasmtime) (h : HostState) (calls : List HostCall) : HostState :=
  calls.foldl (HostState.call wt) h

/-- `invoke_pull`, under the driver's timeout. -/
def invokePull (wt : Wasmtime) (bindings : Option WitBindings) (componentId : ComponentId)
    (guest : GuestCall (Option WitOutputElement)) (h : HostState) :
    Answer (Option OutputElement) × HostState :=
  if bindings ≠ some .dataSource then
    (.error (.internal
      s!"Component {componentId} is not a data-source — `pull` is not exported"), h)
  else
    let h := h.calls wt guest.calls
    match guest.returned with
    | none => (.timeout, h)
    | some (.error e) => (.error (convertWasmError e componentId "pull"), h)
    | some (.ok (.error e)) => (.error e, h)
    | some (.ok (.ok none)) => (.ok none, h)
    | some (.ok (.ok (some out))) =>
      match h.convertOutputElement wt out componentId with
      | (.error e, h) => (.error e, h)
      | (.ok output, h) => (.ok (some output), h)

/-- `invoke_process`, under the driver's timeout. The input is reclaimed before the result is
looked at; an invocation that times out never gets there. -/
def invokeProcess (wt : Wasmtime) (bindings : Option WitBindings) (componentId : ComponentId)
    (element : StreamElement) (guest : GuestCall WitProcessResult) (h : HostState) :
    Answer ProcessResult × HostState :=
  if bindings ≠ some .transform ∧ bindings ≠ some .managedTransform then
    (.error (.internal s!"Component {componentId} does not export `process`"), h)
  else
    match h.toWitStreamElement wt element with
    | (.error e, h) =>
      let text := wt.errorText e
      (.error (.internal s!"stream-element marshal: {text}"), h)
    | (.ok input, h) =>
      let h := h.calls wt guest.calls
      match guest.returned with
      | none => (.timeout, h)
      | some outer =>
        let (reclaimed, h) := h.reclaimInputElement wt input.payload componentId
        match outer, reclaimed with
        | .error e, _ => (.error (convertWasmError e componentId "process"), h)
        | .ok _, .error e => (.error e, h)
        | .ok (.error e), .ok () => (.error e, h)
        | .ok (.ok .drop), .ok () => (.ok .filtered, h)
        | .ok (.ok (.emit out)), .ok () =>
          match h.convertOutputElement wt out componentId with
          | (.error e, h) => (.error e, h)
          | (.ok output, h) => (.ok (.output output), h)

/-- `invoke_push`, under the driver's timeout. -/
def invokePush (wt : Wasmtime) (bindings : Option WitBindings) (componentId : ComponentId)
    (element : StreamElement) (guest : GuestCall BackpressureSignal) (h : HostState) :
    Answer BackpressureSignal × HostState :=
  if bindings ≠ some .dataSink then
    (.error (.internal
      s!"Component {componentId} is not a data-sink — `push` is not exported"), h)
  else
    match h.toWitStreamElement wt element with
    | (.error e, h) =>
      let text := wt.errorText e
      (.error (.internal s!"stream-element marshal: {text}"), h)
    | (.ok input, h) =>
      let h := h.calls wt guest.calls
      match guest.returned with
      | none => (.timeout, h)
      | some outer =>
        let (reclaimed, h) := h.reclaimInputElement wt input.payload componentId
        match outer, reclaimed with
        | .error e, _ => (.error (convertWasmError e componentId "push"), h)
        | .ok _, .error e => (.error e, h)
        | .ok (.error e), .ok () => (.error e, h)
        | .ok (.ok signal), .ok () => (.ok signal, h)

end HostState

end Torvyn.Engine
