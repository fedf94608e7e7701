/-
# The host state of a store

`host_state.rs` of `torvyn-engine`: the table of buffer wrappers of one store and the host
functions through which a component reaches the resource manager. The bytes stay in the
manager; a wrapper is a handle together with the owner under which the store acts on it.

Fuel, the trace context, the WASI context and the content type of a buffer are left out: no
wrapper depends on them.
-/
import Torvyn.Resources.Manager

namespace Torvyn

/-! ## Texts -/

instance : ToString ResourceId := ⟨fun id => s!"resource-{id.index}:g{id.generation}"⟩

instance : ToString ResourceError where
  toString
    | .staleHandle handle =>
      s!"[E0300] Stale resource handle: {handle}. The slot has been freed and reused. " ++
        "This usually indicates a bug in the component or a lifecycle mismatch."
    | .notOwner handle expectedOwner actualCaller =>
      s!"[E0301] Not owner of resource {handle}: expected owner '{expectedOwner}', " ++
        s!"caller is '{actualCaller}'. Only the owner can transfer, free, or mutate a resource."
    | .notAllocated handle =>
      s!"[E0302] Resource {handle} is not allocated (currently pooled). " ++
        "Allocate the resource before attempting to use it."
    | .borrowsOutstanding handle borrowCount =>
      s!"[E0303] Cannot modify resource {handle}: {borrowCount} borrow(s) outstanding. " ++
        "Wait for all borrows to be released before transferring or freeing."
    | .budgetExceeded component currentBytes requestedBytes budgetBytes =>
      s!"[E0306] Memory budget exceeded for {component}: current={currentBytes}B, " ++
        s!"requested={requestedBytes}B, budget={budgetBytes}B. " ++
        "Release unused buffers or increase the component's memory budget in Torvyn.toml."
    | .allocationFailed requestedCapacity reason =>
      s!"[E0307] Buffer allocation failed for {requestedCapacity}B: {reason}. " ++
        "Consider increasing pool sizes or reducing concurrent buffer usage."
    | .capacityExceeded handle capacity attemptedSize =>
      s!"[E0308] Write would exceed buffer capacity for {handle}: capacity={capacity}B, " ++
        s!"attempted_size={attemptedSize}B. Allocate a larger buffer or reduce write size."
    | .outOfBounds handle offset bufferSize =>
      s!"[E0309] Out of bounds access on {handle}: offset={offset}, " ++
        s!"buffer_size={bufferSize}B. Verify offset is within the buffer's valid range."

namespace Engine

/-! ## The table of a store -/

/-- The two resource types by which a component knows a buffer. -/
inductive WrapperKind where
  | buffer
  | mutableBuffer
  deriving DecidableEq, Repr

/-- The wrapper of a buffer, `HostBuffer` or `HostMutableBuffer` by its kind: the handle in
the manager and the last known owner. -/
structure Wrapper where
  kind : WrapperKind
  handle : BufferHandle
  owner : OwnerId
  deriving DecidableEq, Repr

/-- The wrappers of a store by their representation. -/
abbrev WrapperTable := ℕ → Option Wrapper

/-- The errors of wasmtime's resource table. -/
inductive ResourceTableError where
  | full
  | notPresent
  | wrongType
  deriving DecidableEq, Repr

/-- What the host relies on of wasmtime's resource table: where a new entry goes, which is
never where another one is, and how an error reads. Without a place the table is full. -/
structure Wasmtime where
  place : WrapperTable → Option ℕ
  place_free : ∀ table rep, place table = some rep → table rep = none
  errorText : ResourceTableError → String

namespace WrapperTable

/-- `ResourceTable::get` at the type of the kind. -/
def get (kind : WrapperKind) (rep : ℕ) (table : WrapperTable) :
    Except ResourceTableError Wrapper :=
  match table rep with
  | none => .error .notPresent
  | some wrapper => if wrapper.kind = kind then .ok wrapper else .error .wrongType

/-- `ResourceTable::delete` at the type of the kind. -/
def delete (kind : WrapperKind) (rep : ℕ) (table : WrapperTable) :
    Except ResourceTableError (Wrapper × WrapperTable) :=
  match get kind rep table with
  | .error e => .error e
  | .ok wrapper => .ok (wrapper, Function.update table rep none)

/-- `ResourceTable::push`. -/
def push (wt : Wasmtime) (wrapper : Wrapper) (table : WrapperTable) :
    Except ResourceTableError (ℕ × WrapperTable) :=
  match wt.place table with
  | none => .error .full
  | some rep => .ok (rep, Function.update table rep (some wrapper))

/-- Looking up a representation finds the wrapper there, if it is of the kind. -/
theorem get_eq_ok {kind : WrapperKind} {rep : ℕ} {table : WrapperTable} {wrapper : Wrapper} :
    table.get kind rep = .ok wrapper ↔ table rep = some wrapper ∧ wrapper.kind = kind := by
  unfold get
  split
  · rename_i hnone
    simp [hnone]
  · rename_i found hsome
    rw [hsome]
    split_ifs with hkind
    · simp only [Except.ok.injEq, Option.some.injEq]
      exact ⟨fun heq => ⟨heq, heq ▸ hkind⟩, fun h => h.1⟩
    · simp only [Option.some.injEq, false_iff, not_and]
      rintro rfl
      exact hkind

end WrapperTable

/-! ## Host functions -/

/-- `FROZEN_SENTINEL`: the handle of a mutable wrapper whose buffer has been frozen. -/
def frozenSentinel : BufferHandle := ⟨⟨2 ^ 32 - 1, 2 ^ 32 - 1⟩⟩

/-- `MAX_BUFFER_CAPACITY`: 16 MiB. -/
def maxBufferCapacity : ℕ := 16 * 1024 * 1024

/-- What a store holds: the component, the flow its calls are accounted to and its table. -/
structure Store where
  componentId : ComponentId
  flowId : FlowId
  table : WrapperTable

/-- The state of a store, with the manager that all stores share. -/
structure HostState extends Store where
  resources : ResourceManager

/-- A host function ends in a trap: an error of the table or one of the manager (`map_err`). -/
inductive HostTrap where
  | table (e : ResourceTableError)
  | resource (e : ResourceError)
  deriving DecidableEq, Repr

/-- The WIT variant `buffer-error`. -/
inductive BufferError where
  | capacityExceeded
  | outOfBounds
  | allocationFailed (reason : String)
  deriving DecidableEq, Repr

/-- `buffer_error_from`. -/
def bufferErrorFrom : ResourceError → BufferError
  | .capacityExceeded _ _ _ | .budgetExceeded _ _ _ _ => .capacityExceeded
  | .outOfBounds _ _ _ => .outOfBounds
  | other => .allocationFailed (toString other)

/-- `clamp_read_range`: the part of a range that lies in the payload. -/
def clampReadRange (offset len payloadLen : ℕ) : ℕ × ℕ :=
  if offset ≥ payloadLen then (0, 0) else (offset, min len (payloadLen - offset))

namespace HostState

/-- The owner as which a store acts on what its component allocates. -/
def componentOwner (h : HostState) : OwnerId := .component h.componentId

/-- `size`, of either type. -/
def size (kind : WrapperKind) (rep : ℕ) (h : HostState) : Except HostTrap ℕ :=
  match h.table.get kind rep with
  | .error e => .error (.table e)
  | .ok wrapper => (h.resources.payloadLen wrapper.handle).mapError .resource

/-- `mutable-buffer.capacity`. -/
def capacity (rep : ℕ) (h : HostState) : Except HostTrap ℕ :=
  match h.table.get .mutableBuffer rep with
  | .error e => .error (.table e)
  | .ok wrapper =>
    match h.resources.table.get wrapper.handle with
    | .error e => .error (.resource e)
    | .ok info => .ok info.payloadCapacity

/-- Read a range of a payload that is known to be inside it; an empty one is not read. -/
def readRange (wrapper : Wrapper) (offset len : ℕ) (h : HostState) :
    Except HostTrap (List UInt8) × HostState :=
  if len = 0 then (.ok [], h)
  else
    let read := h.resources.readPayload wrapper.handle wrapper.owner offset len h.flowId
    (read.1.mapError .resource, { h with resources := read.2 })

/-- `buffer.read`. -/
def read (rep offset len : ℕ) (h : HostState) : Except HostTrap (List UInt8) × HostState :=
  match h.table.get .buffer rep with
  | .error e => (.error (.table e), h)
  | .ok wrapper =>
    match h.resources.payloadLen wrapper.handle with
    | .error e => (.error (.resource e), h)
    | .ok total =>
      let range := clampReadRange offset len total
      h.readRange wrapper range.1 range.2

/-- `buffer.read-all`. -/
def readAll (rep : ℕ) (h : HostState) : Except HostTrap (List UInt8) × HostState :=
  match h.table.get .buffer rep with
  | .error e => (.error (.table e), h)
  | .ok wrapper =>
    match h.resources.payloadLen wrapper.handle with
    | .error e => (.error (.resource e), h)
    | .ok total => h.readRange wrapper 0 total

/-- The `drop` of a wrapper of either type: the buffer is released, unless it has been frozen
and belongs to another wrapper. -/
def drop (kind : WrapperKind) (rep : ℕ) (h : HostState) : Except HostTrap Unit × HostState :=
  match h.table.delete kind rep with
  | .error e => (.error (.table e), h)
  | .ok (wrapper, table) =>
    if wrapper.handle = frozenSentinel then (.ok (), { h with table := table })
    else
      let released := h.resources.release wrapper.handle wrapper.owner
      (released.1.mapError .resource, { h with table := table, resources := released.2 })

/-- Write to the payload behind a wrapper. -/
def writeAt (wrapper : Wrapper) (offset : ℕ) (bytes : List UInt8) (h : HostState) :
    Except HostTrap (Except BufferError Unit) × HostState :=
  let written := h.resources.writePayload wrapper.handle wrapper.owner offset bytes h.flowId
  (.ok (written.1.mapError bufferErrorFrom), { h with resources := written.2 })

/-- `mutable-buffer.write`. -/
def write (rep offset : ℕ) (bytes : List UInt8) (h : HostState) :
    Except HostTrap (Except BufferError Unit) × HostState :=
  match h.table.get .mutableBuffer rep with
  | .error e => (.error (.table e), h)
  | .ok wrapper =>
    if offset > 2 ^ 32 - 1 then (.ok (.error .outOfBounds), h) else h.writeAt wrapper offset bytes

/-- `mutable-buffer.append`. -/
def append (rep : ℕ) (bytes : List UInt8) (h : HostState) :
    Except HostTrap (Except BufferError Unit) × HostState :=
  match h.table.get .mutableBuffer rep with
  | .error e => (.error (.table e), h)
  | .ok wrapper =>
    match h.resources.payloadLen wrapper.handle with
    | .error e => (.error (.resource e), h)
    | .ok len => h.writeAt wrapper len bytes

/-- `mutable-buffer.freeze`: the mutable wrapper keeps its place under the sentinel, and its
buffer passes to a new wrapper. -/
def freeze (wt : Wasmtime) (rep : ℕ) (h : HostState) : Except HostTrap ℕ × HostState :=
  match h.table.get .mutableBuffer rep with
  | .error e => (.error (.table e), h)
  | .ok wrapper =>
    let table := Function.update h.table rep (some { wrapper with handle := frozenSentinel })
    match WrapperTable.push wt ⟨.buffer, wrapper.handle, wrapper.owner⟩ table with
    | .error e => (.error (.table e), { h with table := table })
    | .ok (frozen, table) => (.ok frozen, { h with table := table })

/-- Give the component a mutable wrapper of a buffer it has just been allocated. -/
def wrap (wt : Wasmtime) (handle : BufferHandle) (h : HostState) :
    Except HostTrap (Except BufferError ℕ) × HostState :=
  match h.table.push wt ⟨.mutableBuffer, handle, h.componentOwner⟩ with
  | .error e => (.error (.table e), h)
  | .ok (rep, table) => (.ok (.ok rep), { h with table := table })

/-- `buffer-allocator.allocate`. -/
def allocate (wt : Wasmtime) (alloc : Allocator) (capacityHint : ℕ) (h : HostState) :
    Except HostTrap (Except BufferError ℕ) × HostState :=
  if capacityHint > maxBufferCapacity then (.ok (.error .capacityExceeded), h)
  else
    match h.resources.allocate alloc h.componentOwner capacityHint h.flowId with
    | (.error e, resources) => (.ok (.error (bufferErrorFrom e)), { h with resources := resources })
    | (.ok handle, resources) => wrap wt handle { h with resources := resources }

/-- Allocate a buffer for a copy of `bytes`, fill it and wrap it. An allocation that cannot be
filled is undone. -/
def allocateCopy (wt : Wasmtime) (alloc : Allocator) (bytes : List UInt8) (total : ℕ)
    (h : HostState) : Except HostTrap (Except BufferError ℕ) × HostState :=
  let owner := h.componentOwner
  match h.resources.allocate alloc owner (max total 1) h.flowId with
  | (.error e, resources) => (.ok (.error (bufferErrorFrom e)), { h with resources := resources })
  | (.ok handle, resources) =>
    if bytes.isEmpty then wrap wt handle { h with resources := resources }
    else
      match resources.writePayload handle owner 0 bytes h.flowId with
      | (.error e, resources) =>
        (.ok (.error (bufferErrorFrom e)),
          { h with resources := (resources.release handle owner).2 })
      | (.ok (), resources) => wrap wt handle { h with resources := resources }

/-- `buffer-allocator.clone-into-mutable`. -/
def cloneIntoMutable (wt : Wasmtime) (alloc : Allocator) (source : ℕ) (h : HostState) :
    Except HostTrap (Except BufferError ℕ) × HostState :=
  match h.table.get .buffer source with
  | .error e => (.error (.table e), h)
  | .ok wrapper =>
    match h.resources.payloadLen wrapper.handle with
    | .error e => (.error (.resource e), h)
    | .ok total =>
      match h.readRange wrapper 0 total with
      | (.error e, h) => (.error e, h)
      | (.ok bytes, h) => h.allocateCopy wt alloc bytes total

end HostState

/-! ## Calls of a component -/

/-- A call of a host function. -/
inductive HostCall where
  | allocate (alloc : Allocator) (capacityHint : ℕ)
  | cloneIntoMutable (alloc : Allocator) (source : ℕ)
  | write (rep offset : ℕ) (bytes : List UInt8)
  | append (rep : ℕ) (bytes : List UInt8)
  | freeze (rep : ℕ)
  | read (rep offset len : ℕ)
  | readAll (rep : ℕ)
  | drop (kind : WrapperKind) (rep : ℕ)

/-- The state after a call. -/
def HostState.call (wt : Wasmtime) (h : HostState) : HostCall → HostState
  | .allocate alloc capacityHint => (h.allocate wt alloc capacityHint).2
  | .cloneIntoMutable alloc source => (h.cloneIntoMutable wt alloc source).2
  | .write rep offset bytes => (h.write rep offset bytes).2
  | .append rep bytes => (h.append rep bytes).2
  | .freeze rep => (h.freeze wt rep).2
  | .read rep offset len => (h.read rep offset len).2
  | .readAll rep => (h.readAll rep).2
  | .drop kind rep => (h.drop kind rep).2

end Engine

end Torvyn
