/-
# Resource identity

The data of `handle.rs` and `error.rs` of `torvyn-resources`: owners, pool tiers, table
entries and the errors of the resource manager.

The content type, the creation time and the reserved read-only flag of an entry are left
out: no operation of the manager decides anything by them.
-/
import Torvyn.Types

namespace Torvyn

/-! ## Owners -/

/-- The entity that owns a resource. -/
inductive OwnerId where
  | host
  | component (id : ComponentId)
  | transit
  deriving DecidableEq, Repr

namespace OwnerId

/-- The component, if the owner is one. -/
def componentId : OwnerId → Option ComponentId
  | component id => some id
  | _ => none

instance : ToString OwnerId where
  toString
    | host => "host"
    | component id => toString id
    | transit => "transit"

@[simp] theorem componentId_eq_some {owner : OwnerId} {c : ComponentId} :
    owner.componentId = some c ↔ owner = component c := by
  cases owner <;> simp [componentId]

end OwnerId

/-! ## Pool tiers -/

/-- `MAX_BUFFER_SIZE`: the largest payload, 16 MiB. -/
def maxBufferSize : ℕ := 16 * 1024 * 1024

/-- The classes of pooled buffers, by payload capacity. -/
inductive PoolTier where
  | small
  | medium
  | large
  | huge
  deriving DecidableEq, Repr

namespace PoolTier

/-- The payload capacity of a tier in bytes. -/
def capacity : PoolTier → ℕ
  | small => 256
  | medium => 4 * 1024
  | large => 64 * 1024
  | huge => 1024 * 1024

/-- The smallest tier that can hold `requested` bytes, `huge` when none can. -/
def forCapacity (requested : ℕ) : PoolTier :=
  if requested ≤ small.capacity then small
  else if requested ≤ medium.capacity then medium
  else if requested ≤ large.capacity then large
  else huge

/-- The largest request that the manager passes on to a tier. -/
def largestRequest : PoolTier → ℕ
  | huge => maxBufferSize
  | tier => tier.capacity

instance : Fintype PoolTier where
  elems := {small, medium, large, huge}
  complete tier := by cases tier <;> decide

/-- A request of at most the global limit is at most the largest request of its tier. -/
theorem le_largestRequest_forCapacity {requested : ℕ} (h : requested ≤ maxBufferSize) :
    requested ≤ (forCapacity requested).largestRequest := by
  unfold forCapacity
  split_ifs <;> simpa [largestRequest]

/-- The largest request of a tier is served by that tier. -/
theorem forCapacity_largestRequest (tier : PoolTier) :
    forCapacity tier.largestRequest = tier := by
  cases tier <;> decide

theorem largestRequest_le_maxBufferSize (tier : PoolTier) :
    tier.largestRequest ≤ maxBufferSize := by
  cases tier <;> decide

/-- A tier's capacity is at most its largest request. -/
theorem capacity_le_largestRequest (tier : PoolTier) : tier.capacity ≤ tier.largestRequest := by
  cases tier <;> decide

/-- A tier that can hold the request is at least as large as the tier chosen for it. -/
theorem capacity_forCapacity_le {requested : ℕ} {tier : PoolTier}
    (h : requested ≤ tier.capacity) : (forCapacity requested).capacity ≤ tier.capacity := by
  unfold forCapacity
  split_ifs <;> cases tier <;> simp only [capacity] at * <;> omega

end PoolTier

/-! ## Entries of the resource table -/

/-- The states of a resource. -/
inductive ResourceState where
  | pooled
  | owned
  | borrowed
  | leased
  | transit
  | freed
  deriving DecidableEq, Repr

/-- Whether a state may be followed by another one. -/
def ResourceState.canTransitionTo (state target : ResourceState) : Bool :=
  if target = .freed then true
  else
    match state, target with
    | .pooled, .owned | .owned, .borrowed | .owned, .leased | .owned, .transit | .owned, .pooled
    | .owned, .freed | .borrowed, .owned | .borrowed, .borrowed | .leased, .owned
    | .transit, .owned => true
    | _, _ => false

/-- A buffer as the pools hand it out: the pointer, the size of the allocation, the tier
it was taken from and whether it came from the system allocator instead of the pool. -/
structure Buffer where
  ptr : ℕ
  allocSize : ℕ
  tier : PoolTier
  isFallback : Bool
  deriving DecidableEq, Repr

/-- A live resource: an occupied slot of the table. -/
structure ResourceEntry where
  generation : ℕ
  state : ResourceState
  owner : OwnerId
  borrowCount : ℕ
  bufferPtr : ℕ
  allocSize : ℕ
  payloadCapacity : ℕ
  payloadLen : ℕ
  poolTier : PoolTier
  isFallback : Bool
  flowId : FlowId
  deriving DecidableEq, Repr

/-- The buffer of an entry. -/
def ResourceEntry.buffer (entry : ResourceEntry) : Buffer :=
  ⟨entry.bufferPtr, entry.allocSize, entry.poolTier, entry.isFallback⟩

/-! ## Errors and reports -/

/-- The errors of the resource manager. -/
inductive ResourceError where
  | allocationFailed (requestedCapacity : ℕ) (reason : String)
  | notOwner (handle : ResourceId) (expectedOwner actualCaller : String)
  | staleHandle (handle : ResourceId)
  | notAllocated (handle : ResourceId)
  | borrowsOutstanding (handle : ResourceId) (borrowCount : ℕ)
  | budgetExceeded (component : ComponentId) (currentBytes requestedBytes budgetBytes : ℕ)
  | outOfBounds (handle : ResourceId) (offset bufferSize : ℕ)
  | capacityExceeded (handle : ResourceId) (capacity attemptedSize : ℕ)
  deriving DecidableEq, Repr

/-- What `force_reclaim` reports for each resource. -/
structure ResourceReclaimed where
  resourceId : ResourceId
  previousState : ResourceState
  previousOwner : OwnerId
  payloadCapacity : ℕ
  returnedToPool : Bool
  deriving DecidableEq, Repr

/-- What `reclaim_flow_buffers` reports for a flow. -/
structure FlowResourceStats where
  returnedToPool : ℕ := 0
  deallocated : ℕ := 0
  totalBytesReleased : ℕ := 0
  borrowsCleared : ℕ := 0
  deriving DecidableEq, Repr

end Torvyn
