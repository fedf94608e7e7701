/-
# Buffers and tiered pools

The memory operations of `buffer.rs` and the pools of `pool.rs`. Each tier keeps a fixed
array of preallocated buffers and a free stack threaded through it; a request that finds the
stack empty is served by the system allocator.

The stack head is its slot index: the tag that guards the head against concurrent reuse and
the pool metrics decide nothing in a sequential run.
-/
import Torvyn.Data.FreeList
import Torvyn.Data.Heap
import Torvyn.Resources.Handle

namespace Torvyn

/-! ## Buffer memory -/

/-- `HEADER_SIZE`: the padded header before the payload. -/
def headerSize : ℕ := 64

/-- Allocate a zeroed buffer with the given payload capacity: its address and its size. -/
def allocBuffer (alloc : Allocator) (payloadCapacity : ℕ) (heap : Heap) :
    Option ((ℕ × ℕ) × Heap) :=
  if payloadCapacity > maxBufferSize then none
  else
    match heap.allocZeroed alloc (headerSize + payloadCapacity) with
    | none => none
    | some (ptr, heap) => some ((ptr, headerSize + payloadCapacity), heap)

/-- Deallocate a buffer. -/
def deallocBuffer (ptr allocSize : ℕ) (heap : Heap) : Heap :=
  heap.dealloc ptr allocSize

/-- The bytes of the payload from `offset` on. -/
def readPayload (ptr offset len : ℕ) (heap : Heap) : List UInt8 :=
  heap.load (ptr + headerSize + offset) len

/-- Write bytes into the payload. -/
def writePayload (ptr offset : ℕ) (data : List UInt8) (heap : Heap) : Heap :=
  heap.store (ptr + headerSize + offset) data

/-- Zero the first `capacity` bytes of the payload. -/
def zeroPayload (ptr capacity : ℕ) (heap : Heap) : Heap :=
  heap.fill (ptr + headerSize) capacity 0

/-! ## A pool of one tier -/

/-- The configuration of a pool. -/
structure TierConfig where
  tier : PoolTier
  poolSize : UInt32
  preallocate : Bool
  deriving DecidableEq, Repr

/-- `TierConfig::defaults`. -/
def TierConfig.defaults : PoolTier → TierConfig
  | .small => ⟨.small, 4096, true⟩
  | .medium => ⟨.medium, 1024, true⟩
  | .large => ⟨.large, 256, true⟩
  | .huge => ⟨.huge, 32, false⟩

/-- `STACK_EMPTY`: the sentinel of the free stack. -/
def stackEmpty : ℕ := 2 ^ 32 - 1

/-- A slot of the pool. The link is meaningful while the slot is on the free stack. -/
structure PoolBuffer where
  ptr : ℕ
  allocSize : ℕ
  nextFree : ℕ
  deriving DecidableEq, Repr

/-- The pool of one tier. -/
structure TierPool where
  buffers : List PoolBuffer
  freeTop : ℕ
  deriving DecidableEq, Repr

namespace TierPool

/-- The loop of `TierPool::new`: `n` of the `poolSize` buffers are still to be pushed. -/
def prealloc (alloc : Allocator) (capacity poolSize : ℕ) :
    ℕ → List PoolBuffer → Heap → Option (List PoolBuffer × Heap)
  | 0, buffers, heap => some (buffers, heap)
  | n + 1, buffers, heap =>
    match allocBuffer alloc capacity heap with
    | none => none
    | some ((ptr, allocSize), heap) =>
      let i := buffers.length
      let next := if i + 1 < poolSize then i + 1 else stackEmpty
      prealloc alloc capacity poolSize n (buffers ++ [⟨ptr, allocSize, next⟩]) heap

/-- Create a pool. `none` when memory runs out during preallocation, where the source
panics. -/
def new (alloc : Allocator) (config : TierConfig) (heap : Heap) : Option (TierPool × Heap) :=
  let poolSize := config.poolSize.toNat
  let initialTop := if config.preallocate ∧ 0 < poolSize then 0 else stackEmpty
  if config.preallocate then
    match prealloc alloc config.tier.capacity poolSize poolSize [] heap with
    | none => none
    | some (buffers, heap) => some (⟨buffers, initialTop⟩, heap)
  else some (⟨[], initialTop⟩, heap)

/-- Pop a buffer from the free stack: its address and its size. -/
def pop (pool : TierPool) : Option ((ℕ × ℕ) × TierPool) :=
  if pool.freeTop = stackEmpty then none
  else
    match pool.buffers[pool.freeTop]? with
    | none => none -- out of bounds; excluded by the free list
    | some buffer => some ((buffer.ptr, buffer.allocSize), { pool with freeTop := buffer.nextFree })

/-- Push a buffer back onto the free stack, `none` when the pool has no slot for it. -/
def push (pool : TierPool) (ptr : ℕ) : Option TierPool :=
  match pool.buffers.findIdx? (fun buffer => buffer.ptr = ptr) with
  | none => none
  | some i =>
    some { buffers := pool.buffers.modify i fun buffer => { buffer with nextFree := pool.freeTop }
           freeTop := i }

end TierPool

/-! ## The set of pools -/

/-- The pool of each tier. -/
abbrev BufferPoolSet := PoolTier → TierPool

namespace BufferPoolSet

/-- Create the pools of all tiers, `none` when memory runs out. The configuration of a slot
carries a tier label of its own, which decides the size of the slot's buffers. -/
def new (alloc : Allocator) (configs : PoolTier → TierConfig) (heap : Heap) :
    Option (BufferPoolSet × Heap) := do
  let (small, heap) ← TierPool.new alloc (configs .small) heap
  let (medium, heap) ← TierPool.new alloc (configs .medium) heap
  let (large, heap) ← TierPool.new alloc (configs .large) heap
  let (huge, heap) ← TierPool.new alloc (configs .huge) heap
  some (fun
    | .small => small
    | .medium => medium
    | .large => large
    | .huge => huge, heap)

/-- Allocate a buffer from the pool of its tier, from the system allocator when the pool is
exhausted. `none` when memory is exhausted too. -/
def allocate (alloc : Allocator) (minCapacity : ℕ) (pools : BufferPoolSet) (heap : Heap) :
    Option (Buffer × BufferPoolSet × Heap) :=
  let tier := PoolTier.forCapacity minCapacity
  match (pools tier).pop with
  | some ((ptr, allocSize), pool) =>
    some (⟨ptr, allocSize, tier, false⟩, Function.update pools tier pool, heap)
  | none =>
    match allocBuffer alloc (max tier.capacity minCapacity) heap with
    | none => none
    | some ((ptr, allocSize), heap) => some (⟨ptr, allocSize, tier, true⟩, pools, heap)

/-- Return a buffer to its pool, or deallocate it. -/
def release (buffer : Buffer) (pools : BufferPoolSet) (heap : Heap) : BufferPoolSet × Heap :=
  if buffer.isFallback then (pools, deallocBuffer buffer.ptr buffer.allocSize heap)
  else
    match (pools buffer.tier).push buffer.ptr with
    | some pool => (Function.update pools buffer.tier pool, heap)
    | none => (pools, deallocBuffer buffer.ptr buffer.allocSize heap)

end BufferPoolSet

end Torvyn
