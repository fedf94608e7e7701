/-
# Custody of buffers

Every buffer is allocated memory of its own and has one holder: it is on the free stack of
its pool or it has been handed out. The pools keep this invariant, whatever is allocated and
released and in which order.
-/
import Torvyn.Resources.Pool

namespace Torvyn

/-! ## The blocks of a pool -/

/-- The memory of a pool slot. -/
def PoolBuffer.block (buffer : PoolBuffer) : Block :=
  ⟨buffer.ptr, buffer.allocSize⟩

/-- The memory of a buffer. -/
def Buffer.block (buffer : Buffer) : Block :=
  ⟨buffer.ptr, buffer.allocSize⟩

namespace TierPool

/-- The memory of all slots. -/
def blocks (pool : TierPool) : List Block :=
  pool.buffers.map PoolBuffer.block

/-- The link of a slot. -/
def next (pool : TierPool) (i : ℕ) : Option ℕ :=
  pool.buffers[i]?.map PoolBuffer.nextFree

theorem getElem?_blocks (pool : TierPool) (i : ℕ) :
    pool.blocks[i]? = pool.buffers[i]?.map PoolBuffer.block :=
  List.getElem?_map

/-- What `pop` does: the first slot of the free stack is unlinked. -/
theorem pop_spec {pool pool' : TierPool} {ptr allocSize : ℕ}
    (h : pool.pop = some ((ptr, allocSize), pool')) :
    pool.freeTop ≠ stackEmpty ∧ pool.blocks[pool.freeTop]? = some ⟨ptr, allocSize⟩ ∧
    pool.next pool.freeTop = some pool'.freeTop ∧ pool'.buffers = pool.buffers := by
  unfold pop at h
  split_ifs at h with hempty
  split at h
  · cases h
  · rename_i buffer hbuffer
    simp only [Option.some.injEq, Prod.mk.injEq] at h
    obtain ⟨⟨rfl, rfl⟩, rfl⟩ := h
    refine ⟨hempty, ?_, ?_, rfl⟩
    · rw [getElem?_blocks, hbuffer]
      rfl
    · simp only [next, hbuffer, Option.map_some]

/-- A free stack that is not empty can be popped. -/
theorem exists_pop {pool : TierPool} {l : List ℕ}
    (hl : FreeList pool.next stackEmpty pool.freeTop l) (hne : pool.freeTop ≠ stackEmpty) :
    ∃ ptr allocSize pool', pool.pop = some ((ptr, allocSize), pool') := by
  obtain ⟨j, -, hj, -⟩ := hl.pop hne
  obtain ⟨buffer, hbuffer, -⟩ := Option.map_eq_some_iff.1 hj
  refine ⟨buffer.ptr, buffer.allocSize, { pool with freeTop := buffer.nextFree }, ?_⟩
  simp only [pop, if_neg hne, hbuffer]

/-- What `push` does: the slot of the pointer is linked in front of the free stack. -/
theorem push_spec {pool pool' : TierPool} {ptr : ℕ} (h : pool.push ptr = some pool') :
    ∃ block, pool.blocks[pool'.freeTop]? = some block ∧ block.start = ptr ∧
      pool'.next pool'.freeTop = some pool.freeTop ∧ pool'.blocks = pool.blocks ∧
      ∀ j, j ≠ pool'.freeTop → pool'.next j = pool.next j := by
  unfold push at h
  split at h
  · cases h
  · rename_i i hi
    obtain rfl := Option.some.inj h
    obtain ⟨hlt, hptr, -⟩ := List.findIdx?_eq_some_iff_getElem.1 hi
    refine ⟨(pool.buffers[i]).block, ?_, of_decide_eq_true hptr, ?_, ?_, fun j hj => ?_⟩
    · rw [getElem?_blocks, List.getElem?_eq_getElem hlt]
      rfl
    · simp only [next, List.getElem?_modify_eq, List.getElem?_eq_getElem hlt]
      rfl
    · apply List.ext_getElem?
      intro j
      simp only [getElem?_blocks, List.getElem?_modify]
      cases pool.buffers[j]? with
      | none => simp
      | some buffer =>
        by_cases hj : i = j <;> simp [hj, PoolBuffer.block]
    · simp only [next, List.getElem?_modify_ne _ _ (Ne.symm hj)]

/-- A pointer that `push` refuses belongs to no slot. -/
theorem start_ne_of_push_eq_none {pool : TierPool} {ptr : ℕ} (h : pool.push ptr = none) :
    ∀ block ∈ pool.blocks, block.start ≠ ptr := by
  unfold push at h
  split at h
  · rename_i hnone
    intro block hblock
    obtain ⟨buffer, hbuffer, rfl⟩ := List.mem_map.1 hblock
    exact of_decide_eq_false (List.findIdx?_eq_none_iff.1 hnone buffer hbuffer)
  · cases h

end TierPool

/-! ## Creating the pools -/

namespace TierPool

/-- An allocation of `alloc_buffer` extends the heap by the buffer it returns. -/
theorem allocBuffer_spec {alloc : Allocator} {capacity ptr allocSize : ℕ} {heap heap' : Heap}
    (hheap : heap.WellFormed) (h : allocBuffer alloc capacity heap = some ((ptr, allocSize), heap')) :
    allocSize = headerSize + capacity ∧ heap.ExtendedBy heap' [⟨ptr, allocSize⟩] := by
  unfold allocBuffer at h
  split_ifs at h
  split at h
  · cases h
  · rename_i ptr' heap'' halloc
    simp only [Option.some.injEq, Prod.mk.injEq] at h
    obtain ⟨⟨rfl, rfl⟩, rfl⟩ := h
    exact ⟨rfl, hheap.allocZeroed (by simp [headerSize]) halloc⟩

/-- The slots pushed by the loop of `new`: each is linked to its successor, the last one to
the sentinel, and their memory is new. -/
theorem prealloc_spec {alloc : Allocator} {capacity poolSize n : ℕ}
    {buffers buffers' : List PoolBuffer} {heap heap' : Heap} (hheap : heap.WellFormed)
    (h : prealloc alloc capacity poolSize n buffers heap = some (buffers', heap')) :
    ∃ added, buffers' = buffers ++ added ∧ added.length = n ∧
      heap.ExtendedBy heap' (added.map PoolBuffer.block).reverse ∧
      (∀ b ∈ added, b.allocSize = headerSize + capacity) ∧
      ∀ i, i < n → added[i]?.map PoolBuffer.nextFree =
        some (if buffers.length + i + 1 < poolSize then buffers.length + i + 1
          else stackEmpty) := by
  induction n generalizing buffers heap with
  | zero =>
    simp only [prealloc, Option.some.injEq, Prod.mk.injEq] at h
    obtain ⟨rfl, rfl⟩ := h
    exact ⟨[], by simp, rfl, .refl hheap, by simp, by simp⟩
  | succ n ih =>
    unfold prealloc at h
    split at h
    · cases h
    · rename_i ptr allocSize heap₁ halloc
      obtain ⟨hsize, hext⟩ := allocBuffer_spec hheap halloc
      obtain ⟨added, rfl, hlen, hext', hsizes, hlinks⟩ := ih hext.wellFormed h
      refine ⟨_ :: added, by rw [List.append_assoc]; rfl, by simp [hlen], ?_, ?_, ?_⟩
      · rw [List.map_cons, List.reverse_cons]
        exact hext.trans hext'
      · exact List.forall_mem_cons.2 ⟨hsize, hsizes⟩
      · intro i hi
        cases i with
        | zero => simp
        | succ i =>
          have hlink := hlinks i (by omega)
          simp only [List.length_append, List.length_singleton] at hlink
          rw [List.getElem?_cons_succ, hlink]
          have hnext : buffers.length + 1 + i + 1 = buffers.length + (i + 1) + 1 := by omega
          rw [hnext]

/-- A new pool: all of its memory is new, every slot is on the free stack and has the
capacity of the tier that the configuration names. -/
theorem new_spec {alloc : Allocator} {config : TierConfig} {pool : TierPool} {heap heap' : Heap}
    (hheap : heap.WellFormed) (h : TierPool.new alloc config heap = some (pool, heap')) :
    heap.ExtendedBy heap' pool.blocks.reverse ∧
    (∀ b ∈ pool.blocks, b.size = headerSize + config.tier.capacity) ∧
    (∃ l, FreeList pool.next stackEmpty pool.freeTop l) ∧
    (pool.blocks.length = if config.preallocate then config.poolSize.toNat else 0) ∧
    (pool.blocks ≠ [] → pool.freeTop ≠ stackEmpty) := by
  unfold TierPool.new at h
  dsimp only at h
  split at h
  · rename_i hpre
    split at h
    · cases h
    · rename_i buffers heap₁ hprealloc
      simp only [Option.some.injEq, Prod.mk.injEq] at h
      obtain ⟨rfl, rfl⟩ := h
      obtain ⟨added, rfl, hlen, hext, hsizes, hlinks⟩ := prealloc_spec hheap hprealloc
      refine ⟨hext, ?_, ?_, ?_⟩
      · intro b hb
        obtain ⟨buffer, hbuffer, rfl⟩ := List.mem_map.1 hb
        exact hsizes buffer hbuffer
      · have hsize : config.poolSize.toNat ≤ stackEmpty := by
          have := config.poolSize.toNat_lt
          unfold stackEmpty
          omega
        refine ⟨List.range' 0 (config.poolSize.toNat - 0), ?_⟩
        simp only [hpre, true_and]
        refine FreeList.range' _ 0 hsize fun i _ hi => ?_
        simpa [next] using hlinks i hi
      · refine ⟨by simp [blocks, hlen, hpre], fun hne => ?_⟩
        have hpos : 0 < config.poolSize.toNat := by
          rw [← hlen]
          exact List.length_pos_of_ne_nil fun hnil => hne (by simp [blocks, hnil])
        simp [hpre, hpos, stackEmpty]
  · rename_i hpre
    simp only [Option.some.injEq, Prod.mk.injEq] at h
    obtain ⟨rfl, rfl⟩ := h
    refine ⟨.refl hheap, by simp [blocks], ⟨[], ?_, List.nodup_nil⟩, by simp [blocks, hpre],
      by simp [blocks]⟩
    simp only [hpre, Bool.false_eq_true, false_and, if_false]
    exact .nil

end TierPool

/-! ## The invariant -/

/-- Each buffer is memory of its own with one holder: it is free in its pool or one of the
buffers `used` outside. -/
structure Custody (pools : BufferPoolSet) (heap : Heap) (used : List Buffer) : Prop where
  wellFormed : heap.WellFormed
  pooled : ∀ t, ∀ b ∈ (pools t).blocks, b ∈ heap.blocks
  nodup : ∀ t, (pools t).blocks.Nodup
  apart : ∀ t t' b, b ∈ (pools t).blocks → b ∈ (pools t').blocks → t = t'
  room : ∀ t, (pools t).blocks.length ≤ stackEmpty
  free : ∀ t, ∃ l, FreeList (pools t).next stackEmpty (pools t).freeTop l ∧
    ∀ i ∈ l, ∀ b, (pools t).blocks[i]? = some b → b ∉ used.map Buffer.block
  allocated : ∀ b ∈ used, b.block ∈ heap.blocks
  fromPool : ∀ b ∈ used, b.isFallback = false → b.block ∈ (pools b.tier).blocks
  fromSystem : ∀ b ∈ used, b.isFallback = true → ∀ t, b.block ∉ (pools t).blocks
  exclusive : (used.map Buffer.block).Nodup

namespace Custody

variable {pools pools' : BufferPoolSet} {heap heap' : Heap} {used used' : List Buffer}
  {buffer : Buffer}

/-- The order of the buffers outside does not matter. -/
theorem perm (h : Custody pools heap used) (hperm : used.Perm used') :
    Custody pools heap used' where
  wellFormed := h.wellFormed
  pooled := h.pooled
  nodup := h.nodup
  apart := h.apart
  room := h.room
  free t := by
    obtain ⟨l, hl, hfree⟩ := h.free t
    exact ⟨l, hl, fun i hi b hb hmem => hfree i hi b hb ((hperm.map _).mem_iff.2 hmem)⟩
  allocated b hb := h.allocated b (hperm.mem_iff.2 hb)
  fromPool b hb := h.fromPool b (hperm.mem_iff.2 hb)
  fromSystem b hb := h.fromSystem b (hperm.mem_iff.2 hb)
  exclusive := (hperm.map _).nodup_iff.1 h.exclusive

/-- Custody is about the blocks of the heap, not about their bytes. -/
theorem of_blocks_eq (h : Custody pools heap used) (heap' : Heap)
    (hblocks : heap'.blocks = heap.blocks) :
    Custody pools heap' used where
  wellFormed := h.wellFormed.of_blocks_eq hblocks
  pooled := hblocks ▸ h.pooled
  nodup := h.nodup
  apart := h.apart
  room := h.room
  free := h.free
  allocated := hblocks ▸ h.allocated
  fromPool := h.fromPool
  fromSystem := h.fromSystem
  exclusive := h.exclusive

/-- Replacing one pool by another with the same slots keeps the slots of all tiers. -/
theorem blocks_update {tier : PoolTier} {pool : TierPool}
    (hblocks : pool.blocks = (pools tier).blocks) (t : PoolTier) :
    (Function.update pools tier pool t).blocks = (pools t).blocks := by
  by_cases ht : t = tier
  · subst ht
    rw [Function.update_self, hblocks]
  · rw [Function.update_of_ne ht]

/-- A slot popped from the free stack of its pool is handed out. -/
theorem pop (h : Custody pools heap used) {tier : PoolTier} {ptr allocSize : ℕ} {pool : TierPool}
    (hpop : (pools tier).pop = some ((ptr, allocSize), pool)) :
    Custody (Function.update pools tier pool) heap (⟨ptr, allocSize, tier, false⟩ :: used) := by
  obtain ⟨hne, hblock, hnext, hbuffers⟩ := TierPool.pop_spec hpop
  obtain ⟨l, hl, hfree⟩ := h.free tier
  obtain ⟨j, rest, hj, rfl, htop, hrest⟩ := hl.pop hne
  obtain rfl : j = pool.freeTop := Option.some.inj (hj.symm.trans hnext)
  have hmem : (⟨ptr, allocSize⟩ : Block) ∈ (pools tier).blocks := List.mem_of_getElem? hblock
  have hpool : pool.blocks = (pools tier).blocks := by rw [TierPool.blocks, hbuffers]; rfl
  have hsame := blocks_update hpool
  refine ⟨h.wellFormed, fun t b hb => h.pooled t b (hsame t ▸ hb), fun t => hsame t ▸ h.nodup t,
    fun t t' b hb hb' => h.apart t t' b (hsame t ▸ hb) (hsame t' ▸ hb'),
    fun t => hsame t ▸ h.room t, fun t => ?_, ?_, ?_, ?_, ?_⟩
  · by_cases ht : t = tier
    · subst ht
      refine ⟨rest, ?_, fun i hi b hb => ?_⟩
      · rw [Function.update_self]
        refine hrest.congr fun i _ => ?_
        rw [TierPool.next, hbuffers]
        rfl
      · rw [hsame t] at hb
        simp only [List.map_cons, List.mem_cons, not_or]
        refine ⟨?_, hfree i (List.mem_cons_of_mem _ hi) b hb⟩
        -- another slot of the pool has other memory
        rintro rfl
        have heq := (List.getElem?_inj (List.getElem?_eq_some_iff.1 hb).1 (h.nodup t)).1
          (hb.trans hblock.symm)
        exact htop (heq ▸ hi)
    · obtain ⟨l', hl', hfree'⟩ := h.free t
      refine ⟨l', by rwa [Function.update_of_ne ht], fun i hi b hb => ?_⟩
      rw [hsame t] at hb
      simp only [List.map_cons, List.mem_cons, not_or]
      refine ⟨?_, hfree' i hi b hb⟩
      rintro rfl
      exact ht (h.apart t tier _ (List.mem_of_getElem? hb) hmem)
  · exact List.forall_mem_cons.2 ⟨h.pooled tier _ hmem, h.allocated⟩
  · refine List.forall_mem_cons.2 ⟨fun _ => ?_, fun b hb hf => ?_⟩
    · rw [hsame]
      exact hmem
    · rw [hsame]
      exact h.fromPool b hb hf
  · refine List.forall_mem_cons.2 ⟨fun hf => by simp at hf, fun b hb hf t => ?_⟩
    rw [hsame]
    exact h.fromSystem b hb hf t
  · rw [List.map_cons, List.nodup_cons]
    exact ⟨hfree _ List.mem_cons_self _ hblock, h.exclusive⟩

/-- A buffer from the system allocator is new memory. -/
theorem extend (h : Custody pools heap used) (hfallback : buffer.isFallback = true)
    (hext : heap.ExtendedBy heap' [buffer.block]) : Custody pools heap' (buffer :: used) := by
  have hkeep : ∀ b ∈ heap.blocks, b ∈ heap'.blocks := fun b hb => by
    rw [hext.blocks]
    exact List.mem_append_right _ hb
  have hnew : buffer.block ∉ heap.blocks := by
    intro hmem
    have hdisjoint := hext.wellFormed.disjoint
    rw [hext.blocks, List.singleton_append, List.pairwise_cons] at hdisjoint
    have hpos := h.wellFormed.pos _ hmem
    exact (hdisjoint.1 _ hmem).start_ne hpos hpos rfl
  have hpool : ∀ t, buffer.block ∉ (pools t).blocks := fun t hb => hnew (h.pooled t _ hb)
  have hused : buffer.block ∉ used.map Buffer.block := by
    intro hmem
    obtain ⟨b, hb, heq⟩ := List.mem_map.1 hmem
    exact hnew (heq ▸ h.allocated b hb)
  refine ⟨hext.wellFormed, fun t b hb => hkeep b (h.pooled t b hb), h.nodup, h.apart, h.room,
    fun t => ?_, ?_, ?_, ?_, ?_⟩
  · obtain ⟨l, hl, hfree⟩ := h.free t
    refine ⟨l, hl, fun i hi b hb => ?_⟩
    simp only [List.map_cons, List.mem_cons, not_or]
    refine ⟨?_, hfree i hi b hb⟩
    rintro rfl
    exact hpool t (List.mem_of_getElem? hb)
  · refine List.forall_mem_cons.2 ⟨?_, fun b hb => hkeep _ (h.allocated b hb)⟩
    rw [hext.blocks]
    exact List.mem_append_left _ List.mem_cons_self
  · exact List.forall_mem_cons.2 ⟨fun hf => by simp [hfallback] at hf, h.fromPool⟩
  · exact List.forall_mem_cons.2 ⟨fun _ => hpool, h.fromSystem⟩
  · rw [List.map_cons, List.nodup_cons]
    exact ⟨hused, h.exclusive⟩

/-- A pooled buffer that comes back is pushed onto the free stack of its pool. -/
theorem push (h : Custody pools heap (buffer :: used)) (hpooled : buffer.isFallback = false) :
    ∃ pool, (pools buffer.tier).push buffer.ptr = some pool ∧
      pool.blocks = (pools buffer.tier).blocks ∧
      Custody (Function.update pools buffer.tier pool) heap used := by
  have hmem := h.fromPool buffer List.mem_cons_self hpooled
  cases hpush : (pools buffer.tier).push buffer.ptr with
  | none => exact absurd rfl (TierPool.start_ne_of_push_eq_none hpush _ hmem)
  | some pool =>
    obtain ⟨block, hblock, hstart, hnext, hblocks, hother⟩ := TierPool.push_spec hpush
    have hbmem : block ∈ (pools buffer.tier).blocks := List.mem_of_getElem? hblock
    obtain rfl : block = buffer.block :=
      h.wellFormed.eq_of_start_eq (h.pooled _ _ hbmem) (h.pooled _ _ hmem) hstart
    have hsame := blocks_update hblocks
    obtain ⟨hnot, hexclusive⟩ := List.nodup_cons.1 h.exclusive
    have hweaken : ∀ {b}, b ∉ (buffer :: used).map Buffer.block → b ∉ used.map Buffer.block :=
      fun hb hmem => hb (List.mem_cons_of_mem _ hmem)
    refine ⟨pool, rfl, hblocks, h.wellFormed, fun t b hb => h.pooled t b (hsame t ▸ hb),
      fun t => hsame t ▸ h.nodup t, fun t t' b hb hb' => h.apart t t' b (hsame t ▸ hb) (hsame t' ▸ hb'),
      fun t => hsame t ▸ h.room t, fun t => ?_, fun b hb => h.allocated b (List.mem_cons_of_mem _ hb),
      fun b hb hf => ?_, fun b hb hf t => ?_, hexclusive⟩
    · obtain ⟨l, hl, hfree⟩ := h.free t
      by_cases ht : t = buffer.tier
      · subst ht
        -- the slot was handed out, so it is not on the free stack yet
        have hi : pool.freeTop ∉ l := fun hi => hfree _ hi _ hblock List.mem_cons_self
        have hlt := (List.getElem?_eq_some_iff.1 hblock).1
        refine ⟨pool.freeTop :: l, ?_, fun i hi' b hb => ?_⟩
        · rw [Function.update_self]
          exact hl.push hi (by have := h.room buffer.tier; omega) hnext hother
        · rw [hsame] at hb
          rcases List.mem_cons.1 hi' with rfl | hi'
          · obtain rfl := Option.some.inj (hblock.symm.trans hb)
            exact hnot
          · exact hweaken (hfree i hi' b hb)
      · refine ⟨l, by rwa [Function.update_of_ne ht], fun i hi b hb => ?_⟩
        rw [hsame] at hb
        exact hweaken (hfree i hi b hb)
    · rw [hsame]
      exact h.fromPool b (List.mem_cons_of_mem _ hb) hf
    · rw [hsame]
      exact h.fromSystem b (List.mem_cons_of_mem _ hb) hf t

/-- A buffer of the system allocator that comes back is deallocated. -/
theorem dealloc (h : Custody pools heap (buffer :: used)) (hfallback : buffer.isFallback = true) :
    Custody pools (deallocBuffer buffer.ptr buffer.allocSize heap) used := by
  obtain ⟨hnot, hexclusive⟩ := List.nodup_cons.1 h.exclusive
  have hpool := h.fromSystem buffer List.mem_cons_self hfallback
  refine ⟨h.wellFormed.dealloc _ _, fun t b hb => ?_, h.nodup, h.apart, h.room, fun t => ?_,
    fun b hb => ?_, fun b hb => h.fromPool b (List.mem_cons_of_mem _ hb),
    fun b hb => h.fromSystem b (List.mem_cons_of_mem _ hb), hexclusive⟩
  · refine Heap.mem_dealloc (h.pooled t b hb) ?_
    rintro rfl
    exact hpool t hb
  · obtain ⟨l, hl, hfree⟩ := h.free t
    exact ⟨l, hl, fun i hi b hb hmem => hfree i hi b hb (List.mem_cons_of_mem _ hmem)⟩
  · refine Heap.mem_dealloc (h.allocated b (List.mem_cons_of_mem _ hb)) fun heq => hnot ?_
    exact List.mem_map.2 ⟨b, hb, heq⟩

/-! ## The operations of the pool set -/

/-- How `allocate` serves a request. -/
inductive Served (n : ℕ) (pools : BufferPoolSet) (heap : Heap) (buffer : Buffer)
    (pools' : BufferPoolSet) (heap' : Heap) : Prop where
  | pool : buffer.isFallback = false → heap' = heap → Served n pools heap buffer pools' heap'
  | system : buffer.isFallback = true →
      buffer.allocSize = headerSize + max buffer.tier.capacity n →
      heap.ExtendedBy heap' [buffer.block] → Served n pools heap buffer pools' heap'

/-- **`allocate` hands out a buffer that nobody else holds.** -/
theorem allocate (h : Custody pools heap used) {alloc : Allocator} {n : ℕ}
    (halloc : pools.allocate alloc n heap = some (buffer, pools', heap')) :
    Custody pools' heap' (buffer :: used) ∧ (∀ t, (pools' t).blocks = (pools t).blocks) ∧
    buffer.tier = .forCapacity n ∧ Served n pools heap buffer pools' heap' := by
  unfold BufferPoolSet.allocate at halloc
  dsimp only at halloc
  split at halloc
  · rename_i ptr allocSize pool hpop
    simp only [Option.some.injEq, Prod.mk.injEq] at halloc
    obtain ⟨rfl, rfl, rfl⟩ := halloc
    have hbuffers := (TierPool.pop_spec hpop).2.2.2
    refine ⟨h.pop hpop, blocks_update ?_, rfl, .pool rfl rfl⟩
    rw [TierPool.blocks, hbuffers]
    rfl
  · split at halloc
    · cases halloc
    · rename_i ptr allocSize heap₁ hbuffer
      simp only [Option.some.injEq, Prod.mk.injEq] at halloc
      obtain ⟨rfl, rfl, rfl⟩ := halloc
      obtain ⟨hsize, hext⟩ := TierPool.allocBuffer_spec h.wellFormed hbuffer
      exact ⟨h.extend rfl hext, fun _ => rfl, rfl, .system rfl hsize hext⟩

/-- **`release` takes the buffer back** and changes no byte. -/
theorem release (h : Custody pools heap (buffer :: used)) :
    Custody (BufferPoolSet.release buffer pools heap).1
      (BufferPoolSet.release buffer pools heap).2 used ∧
    (∀ t, ((BufferPoolSet.release buffer pools heap).1 t).blocks = (pools t).blocks) ∧
    (BufferPoolSet.release buffer pools heap).2.memory = heap.memory := by
  unfold BufferPoolSet.release
  cases hf : buffer.isFallback with
  | true => exact ⟨h.dealloc hf, fun _ => rfl, rfl⟩
  | false =>
    obtain ⟨pool, hpush, hblocks, hcustody⟩ := h.push hf
    rw [hpush]
    exact ⟨hcustody, blocks_update hblocks, rfl⟩

/-- The pools start with every slot free, and a slot has the capacity of the tier that its
configuration names. -/
theorem new {alloc : Allocator} {configs : PoolTier → TierConfig}
    (h : BufferPoolSet.new alloc configs .empty = some (pools, heap)) :
    Custody pools heap [] ∧
    (∀ t, ∀ b ∈ (pools t).blocks, b.size = headerSize + (configs t).tier.capacity ∧
      ∀ a, b.Covers a → heap.memory a = 0) ∧
    ∀ t, ((pools t).blocks.length =
      if (configs t).preallocate then (configs t).poolSize.toNat else 0) ∧
      ((pools t).blocks ≠ [] → (pools t).freeTop ≠ stackEmpty) := by
  simp only [BufferPoolSet.new, Option.bind_eq_bind, Option.bind_eq_some_iff, Prod.exists,
    Option.some.injEq, Prod.mk.injEq] at h
  obtain ⟨small, heap₁, hsmall, medium, heap₂, hmedium, large, heap₃, hlarge, huge, heap₄, hhuge,
    hpools, rfl⟩ := h
  have esmall : pools .small = small := by rw [← hpools]
  have emedium : pools .medium = medium := by rw [← hpools]
  have elarge : pools .large = large := by rw [← hpools]
  have ehuge : pools .huge = huge := by rw [← hpools]
  obtain ⟨e₁, z₁, f₁, n₁⟩ := TierPool.new_spec .empty hsmall
  obtain ⟨e₂, z₂, f₂, n₂⟩ := TierPool.new_spec e₁.wellFormed hmedium
  obtain ⟨e₃, z₃, f₃, n₃⟩ := TierPool.new_spec e₂.wellFormed hlarge
  obtain ⟨e₄, z₄, f₄, n₄⟩ := TierPool.new_spec e₃.wellFormed hhuge
  have hext := ((e₁.trans e₂).trans e₃).trans e₄
  let tiers : List PoolTier := [.huge, .large, .medium, .small]
  have htiers : ∀ t, t ∈ tiers := by decide
  have hblocks : heap₄.blocks = tiers.flatMap fun t => (pools t).blocks.reverse := by
    simpa [Heap.empty, tiers, esmall, emedium, elarge, ehuge] using hext.blocks
  have hmem : ∀ t, ∀ b ∈ (pools t).blocks, b ∈ heap₄.blocks := fun t b hb => by
    rw [hblocks]
    exact List.mem_flatMap.2 ⟨t, htiers t, List.mem_reverse.2 hb⟩
  have hnodup := hext.wellFormed.nodup
  rw [hblocks, List.nodup_flatMap] at hnodup
  have : Std.Symm (Function.onFun List.Disjoint fun t => (pools t).blocks.reverse) :=
    ⟨fun _ _ h => h.symm⟩
  have hlength : ∀ t, ((pools t).blocks.length =
      if (configs t).preallocate then (configs t).poolSize.toNat else 0) ∧
      ((pools t).blocks ≠ [] → (pools t).freeTop ≠ stackEmpty) := by
    intro t
    cases t with
    | small => rw [esmall]; exact n₁
    | medium => rw [emedium]; exact n₂
    | large => rw [elarge]; exact n₃
    | huge => rw [ehuge]; exact n₄
  have hfree : ∀ t, ∃ l, FreeList (pools t).next stackEmpty (pools t).freeTop l := by
    intro t
    cases t with
    | small => rw [esmall]; exact f₁
    | medium => rw [emedium]; exact f₂
    | large => rw [elarge]; exact f₃
    | huge => rw [ehuge]; exact f₄
  have hsize : ∀ t, ∀ b ∈ (pools t).blocks,
      b.size = headerSize + (configs t).tier.capacity := by
    intro t
    cases t with
    | small => rw [esmall]; exact z₁
    | medium => rw [emedium]; exact z₂
    | large => rw [elarge]; exact z₃
    | huge => rw [ehuge]; exact z₄
  refine ⟨⟨hext.wellFormed, hmem, fun t => ?_, fun t t' b hb hb' => ?_, fun t => ?_, fun t => ?_,
    by simp, by simp, by simp, List.nodup_nil⟩, fun t b hb => ⟨hsize t b hb, ?_⟩, hlength⟩
  · exact List.nodup_reverse.1 (hnodup.1 t (htiers t))
  · by_contra hne
    exact hnodup.2.forall (htiers t) (htiers t') hne (List.mem_reverse.2 hb) (List.mem_reverse.2 hb')
  · have := (configs t).poolSize.toNat_lt
    refine (hlength t).1.trans_le ?_
    split <;> unfold stackEmpty <;> omega
  · obtain ⟨l, hl⟩ := hfree t
    exact ⟨l, hl, by simp⟩
  · refine hext.zero b ?_
    simpa [Heap.empty, hext.blocks] using hmem t b hb

end Custody

end Torvyn
