/-
# The resource manager

`DefaultResourceManager` of `manager.rs`: the resource table with its two reverse indices,
the pools, the memory behind them and the budgets. Each operation returns its result and the
state after it; an operation that fails keeps what it has changed before the failure.

The allocator is a parameter of each allocation, and the order in which a hash set is
enumerated is a parameter of each bulk reclaim. Operations run one after another, as under
the lock of the source.
-/
import Torvyn.Data.ReverseIndex
import Torvyn.Resources.Accounting
import Torvyn.Resources.Budget
import Torvyn.Resources.Ownership
import Torvyn.Resources.Pool
import Torvyn.Resources.Table

namespace Torvyn

/-- Configuration of the resource manager. -/
structure ResourceManagerConfig where
  tableCapacity : UInt32
  poolConfigs : PoolTier → TierConfig
  defaultBudgetBytes : UInt64

/-- `ResourceManagerConfig::default`. -/
def ResourceManagerConfig.default : ResourceManagerConfig where
  tableCapacity := 65536
  poolConfigs := TierConfig.defaults
  defaultBudgetBytes := 64 * 1024 * 1024

/-- An order in which the elements of a hash set are enumerated. -/
structure HashOrder where
  order : Finset ResourceId → List ResourceId
  nodup : ∀ s, (order s).Nodup
  mem : ∀ s id, id ∈ order s ↔ id ∈ s

noncomputable instance : Inhabited HashOrder where
  default := ⟨Finset.toList, Finset.nodup_toList, fun _ _ => Finset.mem_toList⟩

/-- The state of the manager. A key without a set in a reverse index has the empty set. -/
structure ResourceManager where
  table : ResourceTable
  componentResources : ComponentId → Finset ResourceId
  flowResources : FlowId → Finset ResourceId
  pools : BufferPoolSet
  heap : Heap
  budgets : BudgetRegistry
  ledger : CopyLedger

namespace ResourceManager

/-- Create a manager. `none` where the source panics: without table slots, or when memory
runs out during preallocation. -/
def new (alloc : Allocator) (config : ResourceManagerConfig) : Option ResourceManager :=
  if config.tableCapacity = 0 then none
  else
    match BufferPoolSet.new alloc config.poolConfigs .empty with
    | none => none
    | some (pools, heap) =>
      some { table := .new config.tableCapacity.toNat
             componentResources := fun _ => ∅
             flowResources := fun _ => ∅
             pools := pools
             heap := heap
             budgets := .new config.defaultBudgetBytes.toNat
             ledger := .new }

/-- Register a flow for copy accounting. -/
def registerFlow (flowId : FlowId) (m : ResourceManager) : ResourceManager :=
  { m with ledger := m.ledger.registerFlow flowId }

/-- Register a component with a memory budget. -/
def registerComponent (component : ComponentId) (maxOwnedBytes : Option ℕ)
    (m : ResourceManager) : ResourceManager :=
  { m with budgets := m.budgets.register component maxOwnedBytes }

/-! ## Allocation and release -/

/-- The payload capacity of a buffer for a request. -/
def actualCapacity (minCapacity : ℕ) : ℕ :=
  max (PoolTier.forCapacity minCapacity).capacity minCapacity

/-- Allocate a buffer of at least `minCapacity` bytes. -/
def allocate (alloc : Allocator) (owner : OwnerId) (minCapacity : ℕ) (flowId : FlowId)
    (m : ResourceManager) : Except ResourceError BufferHandle × ResourceManager :=
  if minCapacity > maxBufferSize then
    (.error (.capacityExceeded ⟨0, 0⟩ maxBufferSize minCapacity), m)
  else
    match m.budgets.reserveFor owner (actualCapacity minCapacity) with
    | .error e => (.error e, m)
    | .ok budgets =>
      match m.pools.allocate alloc minCapacity m.heap with
      | none =>
        -- the reservation is kept
        (.error (.allocationFailed minCapacity "system allocator OOM"), { m with budgets := budgets })
      | some (buffer, pools, heap) =>
        let capacity := max buffer.tier.capacity minCapacity
        let entry : ResourceEntry :=
          { generation := 0
            state := .owned
            owner := owner
            borrowCount := 0
            bufferPtr := buffer.ptr
            allocSize := buffer.allocSize
            payloadCapacity := capacity
            payloadLen := 0
            poolTier := buffer.tier
            isFallback := buffer.isFallback
            flowId := flowId }
        match m.table.insert entry with
        | .error e =>
          let (pools, heap) := BufferPoolSet.release buffer pools heap
          (.error e,
            { m with pools := pools, heap := heap, budgets := budgets.releaseFor owner capacity })
        | .ok (id, table) =>
          (.ok ⟨id⟩,
            { m with
              table := table
              componentResources := Index.add m.componentResources owner.componentId id
              flowResources := Index.add m.flowResources (some flowId) id
              pools := pools
              heap := heap
              budgets := budgets })

/-- Zero the payload of a removed entry and return its buffer to the pools. -/
def retire (entry : ResourceEntry) (pools : BufferPoolSet) (heap : Heap) : BufferPoolSet × Heap :=
  BufferPoolSet.release entry.buffer pools (zeroPayload entry.bufferPtr entry.payloadCapacity heap)

/-- Release a buffer. -/
def release (handle : BufferHandle) (caller : OwnerId) (m : ResourceManager) :
    Except ResourceError Unit × ResourceManager :=
  match m.table.get handle with
  | .error e => (.error e, m)
  | .ok entry =>
    match releaseToPool handle caller entry with
    | .error e => (.error e, m)
    | .ok entry =>
      let table := m.table.put handle entry
      match table.remove handle with
      | .error e => (.error e, { m with table := table })
      | .ok (_, table) =>
        let (pools, heap) := retire entry m.pools m.heap
        (.ok (),
          { m with
            table := table
            componentResources :=
              Index.remove m.componentResources caller.componentId handle.resourceId
            flowResources := Index.remove m.flowResources (some entry.flowId) handle.resourceId
            pools := pools
            heap := heap
            budgets := m.budgets.releaseFor caller entry.payloadCapacity })

/-! ## Transfer and borrows -/

/-- Transfer a buffer from one owner to another. The recipient's budget is charged before
the entry is checked, and stays charged when a check fails. -/
def transferOwnership (handle : BufferHandle) (sender recipient : OwnerId) (m : ResourceManager) :
    Except ResourceError Unit × ResourceManager :=
  match m.table.get handle with
  | .error e => (.error e, m)
  | .ok entry =>
    let capacity := entry.payloadCapacity
    match m.budgets.reserveFor recipient capacity with
    | .error e => (.error e, m)
    | .ok budgets =>
      match beginTransfer handle sender entry with
      | .error e => (.error e, { m with budgets := budgets })
      | .ok inTransit =>
        match completeTransfer handle recipient inTransit with
        | .error e =>
          (.error e, { m with budgets := budgets, table := m.table.put handle inTransit })
        | .ok entry =>
          (.ok (),
            { m with
              table := m.table.put handle entry
              componentResources :=
                Index.add (Index.remove m.componentResources sender.componentId handle.resourceId)
                  recipient.componentId handle.resourceId
              budgets := budgets.releaseFor sender capacity })

/-- The borrow operations: a transition of the entry of a handle. -/
def transition (change : BufferHandle → ResourceEntry → Except ResourceError ResourceEntry)
    (handle : BufferHandle) (m : ResourceManager) : Except ResourceError Unit × ResourceManager :=
  match m.table.get handle with
  | .error e => (.error e, m)
  | .ok entry =>
    match change handle entry with
    | .error e => (.error e, m)
    | .ok entry => (.ok (), { m with table := m.table.put handle entry })

/-- Record the start of a borrow. -/
def borrowStart (handle : BufferHandle) (_borrower : ComponentId) (m : ResourceManager) :
    Except ResourceError Unit × ResourceManager :=
  transition Torvyn.borrowStart handle m

/-- Record the end of a borrow. -/
def borrowEnd (handle : BufferHandle) (_borrower : ComponentId) (m : ResourceManager) :
    Except ResourceError Unit × ResourceManager :=
  transition Torvyn.borrowEnd handle m

/-! ## Payload access -/

/-- Read payload bytes. The copy is recorded for the flow that the caller names. -/
def readPayload (handle : BufferHandle) (_caller : OwnerId) (offset length : ℕ) (flowId : FlowId)
    (m : ResourceManager) : Except ResourceError (List UInt8) × ResourceManager :=
  match m.table.get handle with
  | .error e => (.error e, m)
  | .ok entry =>
    if offset + length > entry.payloadLen then
      (.error (.outOfBounds handle.resourceId offset entry.payloadLen), m)
    else
      (.ok (Torvyn.readPayload entry.bufferPtr offset length m.heap),
        { m with ledger := m.ledger.recordCopy flowId length .hostToComponent })

/-- Write payload bytes. -/
def writePayload (handle : BufferHandle) (caller : OwnerId) (offset : ℕ) (data : List UInt8)
    (flowId : FlowId) (m : ResourceManager) : Except ResourceError Unit × ResourceManager :=
  match m.table.get handle with
  | .error e => (.error e, m)
  | .ok entry =>
    if entry.owner ≠ caller then
      (.error (.notOwner handle.resourceId (toString entry.owner) (toString caller)), m)
    else if entry.state ≠ .owned then
      (.error (.borrowsOutstanding handle.resourceId entry.borrowCount), m)
    else if offset + data.length > entry.payloadCapacity then
      (.error (.capacityExceeded handle.resourceId entry.payloadCapacity (offset + data.length)), m)
    else
      let newEnd := offset + data.length
      let payloadLen := if newEnd > entry.payloadLen then newEnd else entry.payloadLen
      (.ok (),
        { m with
          table := m.table.put handle { entry with payloadLen := payloadLen }
          heap := Torvyn.writePayload entry.bufferPtr offset data m.heap
          ledger := m.ledger.recordCopy flowId data.length .componentToHost })

/-- The payload length of a buffer. -/
def payloadLen (handle : BufferHandle) (m : ResourceManager) : Except ResourceError ℕ :=
  match m.table.get handle with
  | .error e => .error e
  | .ok entry => .ok entry.payloadLen

/-! ## Bulk reclaims -/

/-- The loop body of `force_reclaim`. -/
def forceReclaimOne (s : ResourceManager × List ResourceReclaimed) (id : ResourceId) :
    ResourceManager × List ResourceReclaimed :=
  let (m, reclaimed) := s
  match m.table.get ⟨id⟩ with
  | .error _ => s
  | .ok entry =>
    let table := m.table.put ⟨id⟩ { entry with borrowCount := 0, state := .owned, owner := .host }
    match table.remove ⟨id⟩ with
    | .error _ => ({ m with table := table }, reclaimed)
    | .ok (_, table) =>
      let (pools, heap) := retire entry m.pools m.heap
      ({ m with
          table := table
          flowResources := Index.remove m.flowResources (some entry.flowId) id
          pools := pools
          heap := heap },
        reclaimed ++
          [⟨id, entry.state, entry.owner, entry.payloadCapacity, !entry.isFallback⟩])

/-- Reclaim all resources of a component and forget its budget. -/
def forceReclaim (component : ComponentId) (hash : HashOrder) (m : ResourceManager) :
    List ResourceReclaimed × ResourceManager :=
  let ids := hash.order (m.componentResources component)
  let m := { m with componentResources := Function.update m.componentResources component ∅ }
  let (m, reclaimed) := ids.foldl forceReclaimOne (m, [])
  (reclaimed, { m with budgets := m.budgets.unregister component })

/-- The loop body of `reclaim_flow_buffers`. -/
def reclaimFlowOne (s : ResourceManager × FlowResourceStats) (id : ResourceId) :
    ResourceManager × FlowResourceStats :=
  let (m, stats) := s
  match m.table.get ⟨id⟩ with
  | .error _ => s
  | .ok entry =>
    let stats :=
      if entry.borrowCount > 0 then
        { stats with borrowsCleared := stats.borrowsCleared + entry.borrowCount }
      else stats
    let table := m.table.put ⟨id⟩ { entry with borrowCount := 0 }
    let m :=
      { m with
        componentResources := Index.remove m.componentResources entry.owner.componentId id
        budgets := m.budgets.releaseFor entry.owner entry.payloadCapacity }
    match table.remove ⟨id⟩ with
    | .error _ => ({ m with table := table }, stats)
    | .ok (_, table) =>
      let (pools, heap) := retire entry m.pools m.heap
      ({ m with table := table, pools := pools, heap := heap },
        { stats with
          deallocated := if entry.isFallback then stats.deallocated + 1 else stats.deallocated
          returnedToPool :=
            if entry.isFallback then stats.returnedToPool else stats.returnedToPool + 1
          totalBytesReleased := stats.totalBytesReleased + entry.payloadCapacity })

/-- Return every buffer of a flow to the pools. -/
def reclaimFlowBuffers (flowId : FlowId) (hash : HashOrder) (m : ResourceManager) :
    FlowResourceStats × ResourceManager :=
  let ids := hash.order (m.flowResources flowId)
  let m := { m with flowResources := Function.update m.flowResources flowId ∅ }
  let (m, stats) := ids.foldl reclaimFlowOne (m, {})
  (stats, m)

/-- Release all resources of a flow and drop its entry of the copy ledger. -/
def releaseFlowResources (flowId : FlowId) (hash : HashOrder) (m : ResourceManager) :
    Except ResourceError FlowResourceStats × ResourceManager :=
  let (stats, m) := reclaimFlowBuffers flowId hash m
  (.ok stats, { m with ledger := m.ledger.removeFlow flowId })

/-! ## Runs -/

/-- A call of a public operation. -/
inductive Op where
  | registerFlow (flowId : FlowId)
  | registerComponent (component : ComponentId) (maxOwnedBytes : Option ℕ)
  | allocate (alloc : Allocator) (owner : OwnerId) (minCapacity : ℕ) (flowId : FlowId)
  | release (handle : BufferHandle) (caller : OwnerId)
  | transferOwnership (handle : BufferHandle) (sender recipient : OwnerId)
  | borrowStart (handle : BufferHandle) (borrower : ComponentId)
  | borrowEnd (handle : BufferHandle) (borrower : ComponentId)
  | readPayload (handle : BufferHandle) (caller : OwnerId) (offset length : ℕ) (flowId : FlowId)
  | writePayload (handle : BufferHandle) (caller : OwnerId) (offset : ℕ) (data : List UInt8)
      (flowId : FlowId)
  | forceReclaim (component : ComponentId) (hash : HashOrder)
  | reclaimFlowBuffers (flowId : FlowId) (hash : HashOrder)
  | releaseFlowResources (flowId : FlowId) (hash : HashOrder)

/-- What a call returns. -/
inductive Reply where
  | done (result : Except ResourceError Unit)
  | handle (result : Except ResourceError BufferHandle)
  | bytes (result : Except ResourceError (List UInt8))
  | reclaimed (resources : List ResourceReclaimed)
  | stats (result : Except ResourceError FlowResourceStats)

/-- One call: its reply and the state after it. -/
def step (m : ResourceManager) : Op → Reply × ResourceManager
  | .registerFlow flowId => (.done (.ok ()), m.registerFlow flowId)
  | .registerComponent component maxOwnedBytes =>
    (.done (.ok ()), m.registerComponent component maxOwnedBytes)
  | .allocate alloc owner minCapacity flowId =>
    (m.allocate alloc owner minCapacity flowId).map .handle id
  | .release handle caller => (m.release handle caller).map .done id
  | .transferOwnership handle sender recipient =>
    (m.transferOwnership handle sender recipient).map .done id
  | .borrowStart handle borrower => (m.borrowStart handle borrower).map .done id
  | .borrowEnd handle borrower => (m.borrowEnd handle borrower).map .done id
  | .readPayload handle caller offset length flowId =>
    (m.readPayload handle caller offset length flowId).map .bytes id
  | .writePayload handle caller offset data flowId =>
    (m.writePayload handle caller offset data flowId).map .done id
  | .forceReclaim component hash => (m.forceReclaim component hash).map .reclaimed id
  | .reclaimFlowBuffers flowId hash =>
    (m.reclaimFlowBuffers flowId hash).map (fun stats => .stats (.ok stats)) id
  | .releaseFlowResources flowId hash => (m.releaseFlowResources flowId hash).map .stats id

/-- The calls made so far with their replies, the latest first. -/
abbrev Trace := List (Op × Reply)

/-- Make a sequence of calls. -/
def run (m : ResourceManager) (trace : Trace) : List Op → Trace × ResourceManager
  | [] => (trace, m)
  | op :: ops => run (m.step op).2 ((op, (m.step op).1) :: trace) ops

/-- Every call of the sequence meets a condition on the state in which it is made. -/
def Allowed (guard : ResourceManager → Op → Prop) (m : ResourceManager) : List Op → Prop
  | [] => True
  | op :: ops => guard m op ∧ Allowed guard (m.step op).2 ops

/-- What holds at the start and is kept by every allowed call holds after any sequence of
allowed calls. -/
theorem run_invariant {guard : ResourceManager → Op → Prop} {P : Trace → ResourceManager → Prop}
    (hstep : ∀ trace m op, guard m op → P trace m →
      P ((op, (m.step op).1) :: trace) (m.step op).2)
    {m : ResourceManager} {trace : Trace} {ops : List Op} (hops : Allowed guard m ops)
    (h : P trace m) : P (run m trace ops).1 (run m trace ops).2 := by
  induction ops generalizing m trace with
  | nil => exact h
  | cons op ops ih => exact ih hops.2 (hstep trace m op hops.1 h)

theorem run_append (m : ResourceManager) (trace : Trace) (ops ops' : List Op) :
    run m trace (ops ++ ops') = run (run m trace ops).2 (run m trace ops).1 ops' := by
  induction ops generalizing m trace with
  | nil => rfl
  | cons op ops ih => exact ih _ _

theorem allowed_append {guard : ResourceManager → Op → Prop} (m : ResourceManager)
    (trace : Trace) (ops ops' : List Op) :
    Allowed guard m (ops ++ ops') ↔ Allowed guard m ops ∧ Allowed guard (run m trace ops).2 ops' := by
  induction ops generalizing m trace with
  | nil => simp [Allowed, run]
  | cons op ops ih =>
    simp only [List.cons_append, Allowed, run, and_assoc]
    rw [ih]

/-- A stronger condition allows fewer sequences. -/
theorem Allowed.mono {guard guard' : ResourceManager → Op → Prop}
    (hle : ∀ m op, guard m op → guard' m op) {m : ResourceManager} {ops : List Op}
    (h : Allowed guard m ops) : Allowed guard' m ops := by
  induction ops generalizing m with
  | nil => trivial
  | cons op ops ih => exact ⟨hle m op h.1, ih h.2⟩

/-- Without a condition, every sequence is allowed. -/
theorem allowed_true (m : ResourceManager) (ops : List Op) : Allowed (fun _ _ => True) m ops := by
  induction ops generalizing m with
  | nil => trivial
  | cons op ops ih => exact ⟨trivial, ih _⟩

end ResourceManager

/-- A manager that has been created, with what it was created from. -/
structure StartedManager where
  alloc : Allocator
  config : ResourceManagerConfig
  manager : ResourceManager
  started : ResourceManager.new alloc config = some manager

namespace StartedManager

/-- The state after a sequence of calls. -/
def after (s : StartedManager) (ops : List ResourceManager.Op) : ResourceManager :=
  (s.manager.run [] ops).2

/-- The calls and replies of a sequence of calls, the latest first. -/
def trace (s : StartedManager) (ops : List ResourceManager.Op) : ResourceManager.Trace :=
  (s.manager.run [] ops).1

/-- An invariant of all runs holds after any sequence of calls. -/
theorem after_invariant {P : ResourceManager → Prop} (s : StartedManager) (hstart : P s.manager)
    (hstep : ∀ m op, P m → P (m.step op).2) (ops : List ResourceManager.Op) : P (s.after ops) :=
  ResourceManager.run_invariant (P := fun _ m => P m) (fun _ m op _ => hstep m op)
    (ResourceManager.allowed_true _ ops) hstart

end StartedManager

end Torvyn
