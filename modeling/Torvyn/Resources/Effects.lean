/-
# What the operations do

For each operation of the manager, the ways it can end and the state that each of them
leaves. Every invariant of the manager is derived from these.
-/
import Torvyn.Resources.Manager

namespace Torvyn.ResourceManager

variable {m : ResourceManager} {handle : BufferHandle}

/-- The entry of a buffer that has just been allocated. -/
def freshEntry (owner : OwnerId) (minCapacity : ℕ) (flowId : FlowId) (buffer : Buffer)
    (generation : ℕ) : ResourceEntry where
  generation := generation
  state := .owned
  owner := owner
  borrowCount := 0
  bufferPtr := buffer.ptr
  allocSize := buffer.allocSize
  payloadCapacity := actualCapacity minCapacity
  payloadLen := 0
  poolTier := buffer.tier
  isFallback := buffer.isFallback
  flowId := flowId

@[simp] theorem freshEntry_buffer (owner : OwnerId) (minCapacity : ℕ) (flowId : FlowId)
    (buffer : Buffer) (generation : ℕ) :
    (freshEntry owner minCapacity flowId buffer generation).buffer = buffer := rfl

/-- The tier that serves a request. -/
theorem tier_of_allocate {alloc : Allocator} {n : ℕ} {pools pools' : BufferPoolSet}
    {heap heap' : Heap} {buffer : Buffer}
    (h : pools.allocate alloc n heap = some (buffer, pools', heap')) :
    buffer.tier = .forCapacity n := by
  unfold BufferPoolSet.allocate at h
  dsimp only at h
  split at h
  · simp only [Option.some.injEq, Prod.mk.injEq] at h
    rw [← h.1]
  · split at h
    · cases h
    · simp only [Option.some.injEq, Prod.mk.injEq] at h
      rw [← h.1]

/-- How `allocate` ends. -/
inductive Allocated (alloc : Allocator) (owner : OwnerId) (n : ℕ) (flowId : FlowId)
    (m : ResourceManager) : Except ResourceError BufferHandle × ResourceManager → Prop where
  /-- the request or its reservation is refused -/
  | refused (e : ResourceError) :
      maxBufferSize < n ∨ m.budgets.reserveFor owner (actualCapacity n) = .error e →
      Allocated alloc owner n flowId m (.error e, m)
  /-- memory is exhausted -/
  | exhausted (budgets : BudgetRegistry) (e : ResourceError) : n ≤ maxBufferSize →
      m.budgets.reserveFor owner (actualCapacity n) = .ok budgets →
      m.pools.allocate alloc n m.heap = none →
      Allocated alloc owner n flowId m (.error e, { m with budgets := budgets })
  /-- the table is full -/
  | rolledBack (budgets : BudgetRegistry) (e : ResourceError) (buffer : Buffer)
      (pools : BufferPoolSet) (heap : Heap) : n ≤ maxBufferSize →
      m.budgets.reserveFor owner (actualCapacity n) = .ok budgets →
      m.pools.allocate alloc n m.heap = some (buffer, pools, heap) →
      m.table.insert (freshEntry owner n flowId buffer 0) = .error e →
      Allocated alloc owner n flowId m (.error e,
        { m with
          pools := (BufferPoolSet.release buffer pools heap).1
          heap := (BufferPoolSet.release buffer pools heap).2
          budgets := budgets.releaseFor owner (actualCapacity n) })
  | admitted (budgets : BudgetRegistry) (buffer : Buffer) (pools : BufferPoolSet) (heap : Heap)
      (id : ResourceId) (table : ResourceTable) : n ≤ maxBufferSize →
      m.budgets.reserveFor owner (actualCapacity n) = .ok budgets →
      m.pools.allocate alloc n m.heap = some (buffer, pools, heap) →
      m.table.Inserted table id (freshEntry owner n flowId buffer id.generation) →
      Allocated alloc owner n flowId m (.ok ⟨id⟩,
        { m with
          table := table
          componentResources := Index.add m.componentResources owner.componentId id
          flowResources := Index.add m.flowResources (some flowId) id
          pools := pools
          heap := heap
          budgets := budgets })

theorem allocate_cases (alloc : Allocator) (owner : OwnerId) (n : ℕ) (flowId : FlowId)
    (m : ResourceManager) : Allocated alloc owner n flowId m (m.allocate alloc owner n flowId) := by
  unfold allocate
  split_ifs with hn
  · exact .refused _ (.inl hn)
  · have hn : n ≤ maxBufferSize := Nat.le_of_not_lt hn
    split
    · rename_i e hbudgets
      exact .refused e (.inr hbudgets)
    · rename_i budgets hbudgets
      split
      · rename_i hpools
        exact .exhausted budgets _ hn hbudgets hpools
      · rename_i buffer pools heap hpools
        have hcap : max buffer.tier.capacity n = actualCapacity n := by
          rw [tier_of_allocate hpools, actualCapacity]
        simp only [hcap]
        split
        · rename_i e hinsert
          exact .rolledBack budgets e buffer pools heap hn hbudgets hpools hinsert
        · rename_i id table hinsert
          exact .admitted budgets buffer pools heap id table hn hbudgets hpools (.of_insert hinsert)

/-- How `release` ends. -/
inductive Released (handle : BufferHandle) (caller : OwnerId) (m : ResourceManager) :
    Except ResourceError Unit × ResourceManager → Prop where
  | refused (e : ResourceError) : Released handle caller m (.error e, m)
  | dropped (entry : ResourceEntry) (table : ResourceTable) : m.table.get handle = .ok entry →
      checkOwnedBy handle caller entry = .ok () → m.table.Removed table handle entry →
      Released handle caller m (.ok (),
        { m with
          table := table
          componentResources :=
            Index.remove m.componentResources entry.owner.componentId handle.resourceId
          flowResources := Index.remove m.flowResources (some entry.flowId) handle.resourceId
          pools := (retire entry m.pools m.heap).1
          heap := (retire entry m.pools m.heap).2
          budgets := m.budgets.releaseFor entry.owner entry.payloadCapacity })

theorem release_cases (handle : BufferHandle) (caller : OwnerId) (m : ResourceManager) :
    Released handle caller m (m.release handle caller) := by
  unfold release
  split
  · exact .refused _
  · rename_i entry hget
    split
    · exact .refused _
    · rename_i entry' hrelease
      obtain ⟨hcheck, rfl⟩ := releaseToPool_spec hrelease
      obtain ⟨table, hremove, hremoved⟩ :=
        ResourceTable.remove_put hget { entry with state := .pooled } rfl
      obtain ⟨-, rfl⟩ := owner_eq_of_checkOwnedBy hcheck
      simp only [hremove]
      exact .dropped entry table hget hcheck hremoved

/-- A release that passes the checks succeeds. -/
theorem release_succeeds {entry : ResourceEntry} {caller : OwnerId}
    (hget : m.table.get handle = .ok entry) (hcheck : checkOwnedBy handle caller entry = .ok ()) :
    (m.release handle caller).1 = .ok () := by
  obtain ⟨table, hremove, -⟩ :=
    ResourceTable.remove_put hget { entry with state := .pooled } rfl
  simp only [release, hget, releaseToPool, hcheck, hremove]

/-- How `transfer_ownership` ends. -/
inductive Transferred (handle : BufferHandle) (sender recipient : OwnerId) (m : ResourceManager) :
    Except ResourceError Unit × ResourceManager → Prop where
  | refused (e : ResourceError) : Transferred handle sender recipient m (.error e, m)
  /-- the recipient is charged and the entry then refused -/
  | charged (entry : ResourceEntry) (budgets : BudgetRegistry) (e : ResourceError) :
      m.table.get handle = .ok entry →
      m.budgets.reserveFor recipient entry.payloadCapacity = .ok budgets →
      checkOwnedBy handle sender entry = .error e →
      Transferred handle sender recipient m (.error e, { m with budgets := budgets })
  | moved (entry : ResourceEntry) (budgets : BudgetRegistry) : m.table.get handle = .ok entry →
      m.budgets.reserveFor recipient entry.payloadCapacity = .ok budgets →
      checkOwnedBy handle sender entry = .ok () →
      Transferred handle sender recipient m (.ok (),
        { m with
          table := m.table.put handle { entry with owner := recipient }
          componentResources :=
            Index.add (Index.remove m.componentResources entry.owner.componentId handle.resourceId)
              recipient.componentId handle.resourceId
          budgets := budgets.releaseFor entry.owner entry.payloadCapacity })

theorem transfer_cases (handle : BufferHandle) (sender recipient : OwnerId) (m : ResourceManager) :
    Transferred handle sender recipient m (m.transferOwnership handle sender recipient) := by
  unfold transferOwnership
  split
  · exact .refused _
  · rename_i entry hget
    dsimp only
    split
    · exact .refused _
    · rename_i budgets hbudgets
      split
      · rename_i e hbegin
        refine .charged entry budgets e hget hbudgets ?_
        unfold beginTransfer at hbegin
        split at hbegin
        · rename_i hcheck
          rw [hcheck, Except.error.inj hbegin]
        · cases hbegin
      · rename_i inTransit hbegin
        obtain ⟨hcheck, hcomplete⟩ := beginTransfer_spec recipient hbegin
        obtain ⟨-, rfl⟩ := owner_eq_of_checkOwnedBy hcheck
        simp only [hcomplete]
        exact .moved entry budgets hget hbudgets hcheck

/-- A transfer that passes the checks succeeds, if the recipient has the budget. -/
theorem transfer_succeeds {entry : ResourceEntry} {sender recipient : OwnerId}
    {budgets : BudgetRegistry} (hget : m.table.get handle = .ok entry)
    (hbudgets : m.budgets.reserveFor recipient entry.payloadCapacity = .ok budgets)
    (hcheck : checkOwnedBy handle sender entry = .ok ()) :
    (m.transferOwnership handle sender recipient).1 = .ok () := by
  simp [transferOwnership, hget, hbudgets, beginTransfer, hcheck, completeTransfer]

/-- How a borrow operation ends. -/
theorem transition_cases
    (change : BufferHandle → ResourceEntry → Except ResourceError ResourceEntry)
    (handle : BufferHandle) (m : ResourceManager) :
    (∃ e, transition change handle m = (.error e, m)) ∨
    ∃ entry entry', m.table.get handle = .ok entry ∧ change handle entry = .ok entry' ∧
      transition change handle m = (.ok (), { m with table := m.table.put handle entry' }) := by
  unfold transition
  split
  · exact .inl ⟨_, rfl⟩
  · rename_i entry hget
    split
    · exact .inl ⟨_, rfl⟩
    · rename_i entry' hchange
      exact .inr ⟨entry, entry', hget, hchange, rfl⟩

/-- How `read_payload` ends. -/
theorem read_cases (handle : BufferHandle) (caller : OwnerId) (offset length : ℕ)
    (flowId : FlowId) (m : ResourceManager) :
    (∃ e, m.readPayload handle caller offset length flowId = (.error e, m)) ∨
    ∃ entry, m.table.get handle = .ok entry ∧ offset + length ≤ entry.payloadLen ∧
      m.readPayload handle caller offset length flowId =
        (.ok (Torvyn.readPayload entry.bufferPtr offset length m.heap),
          { m with ledger := m.ledger.recordCopy flowId length .hostToComponent }) := by
  unfold readPayload
  split
  · exact .inl ⟨_, rfl⟩
  · rename_i entry hget
    split_ifs with hle
    · exact .inl ⟨_, rfl⟩
    · exact .inr ⟨entry, hget, Nat.le_of_not_lt hle, rfl⟩

/-- The entry after a write that ends at `newEnd`. -/
def writtenEntry (entry : ResourceEntry) (newEnd : ℕ) : ResourceEntry :=
  { entry with payloadLen := max entry.payloadLen newEnd }

/-- How `write_payload` ends. -/
theorem write_cases (handle : BufferHandle) (caller : OwnerId) (offset : ℕ) (data : List UInt8)
    (flowId : FlowId) (m : ResourceManager) :
    (∃ e, m.writePayload handle caller offset data flowId = (.error e, m)) ∨
    ∃ entry, m.table.get handle = .ok entry ∧ entry.owner = caller ∧ entry.state = .owned ∧
      offset + data.length ≤ entry.payloadCapacity ∧
      m.writePayload handle caller offset data flowId = (.ok (),
        { m with
          table := m.table.put handle (writtenEntry entry (offset + data.length))
          heap := Torvyn.writePayload entry.bufferPtr offset data m.heap
          ledger := m.ledger.recordCopy flowId data.length .componentToHost }) := by
  unfold writePayload
  split
  · exact .inl ⟨_, rfl⟩
  · rename_i entry hget
    split_ifs with howner hstate hle
    · exact .inl ⟨_, rfl⟩
    · exact .inl ⟨_, rfl⟩
    · exact .inl ⟨_, rfl⟩
    · refine .inr ⟨entry, hget, not_not.1 howner, not_not.1 hstate, Nat.le_of_not_lt hle, ?_⟩
      have hlen : (if offset + data.length > entry.payloadLen then offset + data.length
          else entry.payloadLen) = max entry.payloadLen (offset + data.length) := by
        split_ifs <;> omega
      simp only [hlen, writtenEntry]

/-- How an iteration of `force_reclaim` ends. -/
theorem forceReclaimOne_cases (m : ResourceManager) (reclaimed : List ResourceReclaimed)
    (id : ResourceId) :
    ((∃ e, m.table.get ⟨id⟩ = .error e) ∧ forceReclaimOne (m, reclaimed) id = (m, reclaimed)) ∨
    ∃ entry table, m.table.get ⟨id⟩ = .ok entry ∧ m.table.Removed table ⟨id⟩ entry ∧
      forceReclaimOne (m, reclaimed) id =
        ({ m with
            table := table
            flowResources := Index.remove m.flowResources (some entry.flowId) id
            pools := (retire entry m.pools m.heap).1
            heap := (retire entry m.pools m.heap).2 },
          reclaimed ++
            [⟨id, entry.state, entry.owner, entry.payloadCapacity, !entry.isFallback⟩]) := by
  unfold forceReclaimOne
  dsimp only
  split
  · rename_i e hget
    exact .inl ⟨⟨e, hget⟩, rfl⟩
  · rename_i entry hget
    obtain ⟨table, hremove, hremoved⟩ := ResourceTable.remove_put hget
      { entry with borrowCount := 0, state := .owned, owner := .host } rfl
    simp only [hremove]
    exact .inr ⟨entry, table, hget, hremoved, rfl⟩

/-- How an iteration of `reclaim_flow_buffers` ends. -/
theorem reclaimFlowOne_cases (m : ResourceManager) (stats : FlowResourceStats) (id : ResourceId) :
    ((∃ e, m.table.get ⟨id⟩ = .error e) ∧ reclaimFlowOne (m, stats) id = (m, stats)) ∨
    ∃ entry table, m.table.get ⟨id⟩ = .ok entry ∧ m.table.Removed table ⟨id⟩ entry ∧
      reclaimFlowOne (m, stats) id =
        ({ m with
            table := table
            componentResources := Index.remove m.componentResources entry.owner.componentId id
            pools := (retire entry m.pools m.heap).1
            heap := (retire entry m.pools m.heap).2
            budgets := m.budgets.releaseFor entry.owner entry.payloadCapacity },
          { returnedToPool :=
              if entry.isFallback then stats.returnedToPool else stats.returnedToPool + 1
            deallocated := if entry.isFallback then stats.deallocated + 1 else stats.deallocated
            totalBytesReleased := stats.totalBytesReleased + entry.payloadCapacity
            borrowsCleared := stats.borrowsCleared + entry.borrowCount }) := by
  unfold reclaimFlowOne
  dsimp only
  split
  · rename_i e hget
    exact .inl ⟨⟨e, hget⟩, rfl⟩
  · rename_i entry hget
    obtain ⟨table, hremove, hremoved⟩ := ResourceTable.remove_put hget
      { entry with borrowCount := 0 } rfl
    simp only [hremove]
    refine .inr ⟨entry, table, hget, hremoved, ?_⟩
    split_ifs with hborrows
    all_goals simp_all

/-- Whether a reply is an error. -/
def Reply.failed : Reply → Bool
  | .done (.error _) | .handle (.error _) | .bytes (.error _) | .stats (.error _) => true
  | _ => false

/-- Whether an operation can fail. -/
def Op.fallible : Op → Bool
  | .registerFlow _ | .registerComponent _ _ | .forceReclaim _ _ | .reclaimFlowBuffers _ _
  | .releaseFlowResources _ _ => false
  | _ => true

/-- How a call ends, over all operations: the call, its reply and the state after it. -/
inductive Stepped (m : ResourceManager) : Op → Reply → ResourceManager → Prop where
  | registeredFlow (flowId : FlowId) :
      Stepped m (.registerFlow flowId) (.done (.ok ())) (m.registerFlow flowId)
  | registeredComponent (component : ComponentId) (maxOwnedBytes : Option ℕ) :
      Stepped m (.registerComponent component maxOwnedBytes) (.done (.ok ()))
        (m.registerComponent component maxOwnedBytes)
  /-- the call fails and leaves everything as it was -/
  | refused (op : Op) (reply : Reply) : op.fallible = true → reply.failed = true →
      Stepped m op reply m
  | exhausted (alloc : Allocator) (owner : OwnerId) (n : ℕ) (flowId : FlowId)
      (budgets : BudgetRegistry) (e : ResourceError) : n ≤ maxBufferSize →
      m.budgets.reserveFor owner (actualCapacity n) = .ok budgets →
      m.pools.allocate alloc n m.heap = none →
      Stepped m (.allocate alloc owner n flowId) (.handle (.error e)) { m with budgets := budgets }
  | rolledBack (alloc : Allocator) (owner : OwnerId) (n : ℕ) (flowId : FlowId)
      (budgets : BudgetRegistry) (e : ResourceError) (buffer : Buffer) (pools : BufferPoolSet)
      (heap : Heap) : n ≤ maxBufferSize →
      m.budgets.reserveFor owner (actualCapacity n) = .ok budgets →
      m.pools.allocate alloc n m.heap = some (buffer, pools, heap) →
      m.table.insert (freshEntry owner n flowId buffer 0) = .error e →
      Stepped m (.allocate alloc owner n flowId) (.handle (.error e))
        { m with
          pools := (BufferPoolSet.release buffer pools heap).1
          heap := (BufferPoolSet.release buffer pools heap).2
          budgets := budgets.releaseFor owner (actualCapacity n) }
  | admitted (alloc : Allocator) (owner : OwnerId) (n : ℕ) (flowId : FlowId)
      (budgets : BudgetRegistry) (buffer : Buffer) (pools : BufferPoolSet) (heap : Heap)
      (id : ResourceId) (table : ResourceTable) : n ≤ maxBufferSize →
      m.budgets.reserveFor owner (actualCapacity n) = .ok budgets →
      m.pools.allocate alloc n m.heap = some (buffer, pools, heap) →
      m.table.Inserted table id (freshEntry owner n flowId buffer id.generation) →
      Stepped m (.allocate alloc owner n flowId) (.handle (.ok ⟨id⟩))
        { m with
          table := table
          componentResources := Index.add m.componentResources owner.componentId id
          flowResources := Index.add m.flowResources (some flowId) id
          pools := pools
          heap := heap
          budgets := budgets }
  | dropped (handle : BufferHandle) (caller : OwnerId) (entry : ResourceEntry)
      (table : ResourceTable) : m.table.get handle = .ok entry →
      checkOwnedBy handle caller entry = .ok () → m.table.Removed table handle entry →
      Stepped m (.release handle caller) (.done (.ok ()))
        { m with
          table := table
          componentResources :=
            Index.remove m.componentResources entry.owner.componentId handle.resourceId
          flowResources := Index.remove m.flowResources (some entry.flowId) handle.resourceId
          pools := (retire entry m.pools m.heap).1
          heap := (retire entry m.pools m.heap).2
          budgets := m.budgets.releaseFor entry.owner entry.payloadCapacity }
  | charged (handle : BufferHandle) (sender recipient : OwnerId) (entry : ResourceEntry)
      (budgets : BudgetRegistry) (e : ResourceError) : m.table.get handle = .ok entry →
      m.budgets.reserveFor recipient entry.payloadCapacity = .ok budgets →
      checkOwnedBy handle sender entry = .error e →
      Stepped m (.transferOwnership handle sender recipient) (.done (.error e))
        { m with budgets := budgets }
  | moved (handle : BufferHandle) (sender recipient : OwnerId) (entry : ResourceEntry)
      (budgets : BudgetRegistry) : m.table.get handle = .ok entry →
      m.budgets.reserveFor recipient entry.payloadCapacity = .ok budgets →
      checkOwnedBy handle sender entry = .ok () →
      Stepped m (.transferOwnership handle sender recipient) (.done (.ok ()))
        { m with
          table := m.table.put handle { entry with owner := recipient }
          componentResources :=
            Index.add (Index.remove m.componentResources entry.owner.componentId handle.resourceId)
              recipient.componentId handle.resourceId
          budgets := budgets.releaseFor entry.owner entry.payloadCapacity }
  | borrowStarted (handle : BufferHandle) (borrower : ComponentId)
      (entry borrowed : ResourceEntry) : m.table.get handle = .ok entry →
      Torvyn.borrowStart handle entry = .ok borrowed →
      Stepped m (.borrowStart handle borrower) (.done (.ok ()))
        { m with table := m.table.put handle borrowed }
  | borrowEnded (handle : BufferHandle) (borrower : ComponentId)
      (entry returned : ResourceEntry) : m.table.get handle = .ok entry →
      Torvyn.borrowEnd handle entry = .ok returned →
      Stepped m (.borrowEnd handle borrower) (.done (.ok ()))
        { m with table := m.table.put handle returned }
  | read (handle : BufferHandle) (caller : OwnerId) (offset length : ℕ) (flowId : FlowId)
      (entry : ResourceEntry) : m.table.get handle = .ok entry →
      offset + length ≤ entry.payloadLen →
      Stepped m (.readPayload handle caller offset length flowId)
        (.bytes (.ok (Torvyn.readPayload entry.bufferPtr offset length m.heap)))
        { m with ledger := m.ledger.recordCopy flowId length .hostToComponent }
  | wrote (handle : BufferHandle) (caller : OwnerId) (offset : ℕ) (data : List UInt8)
      (flowId : FlowId) (entry : ResourceEntry) : m.table.get handle = .ok entry →
      entry.owner = caller → entry.state = .owned →
      offset + data.length ≤ entry.payloadCapacity →
      Stepped m (.writePayload handle caller offset data flowId) (.done (.ok ()))
        { m with
          table := m.table.put handle (writtenEntry entry (offset + data.length))
          heap := Torvyn.writePayload entry.bufferPtr offset data m.heap
          ledger := m.ledger.recordCopy flowId data.length .componentToHost }
  | forceReclaimed (component : ComponentId) (hash : HashOrder) :
      Stepped m (.forceReclaim component hash) (.reclaimed (m.forceReclaim component hash).1)
        (m.forceReclaim component hash).2
  | flowReclaimed (flowId : FlowId) (hash : HashOrder) :
      Stepped m (.reclaimFlowBuffers flowId hash)
        (.stats (.ok (m.reclaimFlowBuffers flowId hash).1)) (m.reclaimFlowBuffers flowId hash).2
  | flowReleased (flowId : FlowId) (hash : HashOrder) :
      Stepped m (.releaseFlowResources flowId hash)
        (.stats (.ok (m.reclaimFlowBuffers flowId hash).1))
        { (m.reclaimFlowBuffers flowId hash).2 with
          ledger := (m.reclaimFlowBuffers flowId hash).2.ledger.removeFlow flowId }

/-- Every call ends in one of these ways. -/
theorem step_cases (m : ResourceManager) (op : Op) :
    Stepped m op (m.step op).1 (m.step op).2 := by
  cases op with
  | registerFlow flowId => exact .registeredFlow flowId
  | registerComponent component maxOwnedBytes =>
    exact .registeredComponent component maxOwnedBytes
  | allocate alloc owner n flowId =>
    have hcases := allocate_cases alloc owner n flowId m
    simp only [step]
    generalize m.allocate alloc owner n flowId = result at hcases ⊢
    cases hcases with
    | refused e => exact .refused _ _ rfl rfl
    | exhausted budgets e hn hbudgets hnone =>
      exact .exhausted alloc owner n flowId budgets e hn hbudgets hnone
    | rolledBack budgets e buffer pools heap hn hbudgets halloc hins =>
      exact .rolledBack alloc owner n flowId budgets e buffer pools heap hn hbudgets halloc hins
    | admitted budgets buffer pools heap id table hn hbudgets halloc hins =>
      exact .admitted alloc owner n flowId budgets buffer pools heap id table hn hbudgets halloc hins
  | release handle caller =>
    have hcases := release_cases handle caller m
    simp only [step]
    generalize m.release handle caller = result at hcases ⊢
    cases hcases with
    | refused e => exact .refused _ _ rfl rfl
    | dropped entry table hget hcheck hrem => exact .dropped handle caller entry table hget hcheck hrem
  | transferOwnership handle sender recipient =>
    have hcases := transfer_cases handle sender recipient m
    simp only [step]
    generalize m.transferOwnership handle sender recipient = result at hcases ⊢
    cases hcases with
    | refused e => exact .refused _ _ rfl rfl
    | charged entry budgets e hget hbudgets hcheck =>
      exact .charged handle sender recipient entry budgets e hget hbudgets hcheck
    | moved entry budgets hget hbudgets hcheck =>
      exact .moved handle sender recipient entry budgets hget hbudgets hcheck
  | borrowStart handle borrower =>
    simp only [step, borrowStart]
    rcases transition_cases Torvyn.borrowStart handle m with
      ⟨e, heq⟩ | ⟨entry, borrowed, hget, hok, heq⟩
    · rw [heq]
      exact .refused _ _ rfl rfl
    · rw [heq]
      exact .borrowStarted handle borrower entry borrowed hget hok
  | borrowEnd handle borrower =>
    simp only [step, borrowEnd]
    rcases transition_cases Torvyn.borrowEnd handle m with
      ⟨e, heq⟩ | ⟨entry, returned, hget, hok, heq⟩
    · rw [heq]
      exact .refused _ _ rfl rfl
    · rw [heq]
      exact .borrowEnded handle borrower entry returned hget hok
  | readPayload handle caller offset length flowId =>
    simp only [step]
    rcases read_cases handle caller offset length flowId m with ⟨e, heq⟩ | ⟨entry, hget, hle, heq⟩
    · rw [heq]
      exact .refused _ _ rfl rfl
    · rw [heq]
      exact .read handle caller offset length flowId entry hget hle
  | writePayload handle caller offset data flowId =>
    simp only [step]
    rcases write_cases handle caller offset data flowId m with
      ⟨e, heq⟩ | ⟨entry, hget, howner, hstate, hle, heq⟩
    · rw [heq]
      exact .refused _ _ rfl rfl
    · rw [heq]
      exact .wrote handle caller offset data flowId entry hget howner hstate hle
  | forceReclaim component hash => exact .forceReclaimed component hash
  | reclaimFlowBuffers flowId hash => exact .flowReclaimed flowId hash
  | releaseFlowResources flowId hash => exact .flowReleased flowId hash

end Torvyn.ResourceManager
