/-
# Conservation of memory

Custody says that what is free, what has been handed out and what the system has given are
apart from each other. Here is the converse: nothing lies outside the three. In every state of
the manager each slot of a pool is on its free stack or belongs to exactly one live entry, and
the allocated memory consists of the slots and of the fallback buffers of the live entries.
Nothing leaks, on no path: a refused allocation, a rollback, a release, a reclaim.
-/
import Torvyn.Resources.Bounds

namespace Torvyn

/-! ## Who holds what -/

namespace BufferPoolSet

/-- The tiers, in the order in which the last created pool comes first. -/
def tiers : List PoolTier := [.huge, .large, .medium, .small]

/-- The memory of the slots of all pools. -/
def slotBlocks (pools : BufferPoolSet) : List Block := tiers.flatMap fun t => (pools t).blocks

end BufferPoolSet

/-- The memory of the slots of a pool that are on a list of free slots. -/
def TierPool.freeBlocks (pool : TierPool) (free : List ℕ) : List Block :=
  free.filterMap fun i => pool.blocks[i]?

/-- The memory, among buffers outside, that came from the pool of a tier. -/
def heldFrom (used : List Buffer) (t : PoolTier) : List Block :=
  (used.filter fun b => b.isFallback = false ∧ b.tier = t).map Buffer.block

/-- The memory, among buffers outside, that came from the system allocator. -/
def heldFromSystem (used : List Buffer) : List Block :=
  (used.filter fun b => b.isFallback = true).map Buffer.block

section Held

variable {buffer : Buffer} {used used' : List Buffer} {t : PoolTier}

theorem heldFrom_cons_of_pooled (h : buffer.isFallback = false) :
    heldFrom (buffer :: used) buffer.tier = buffer.block :: heldFrom used buffer.tier := by
  simp [heldFrom, h]

theorem heldFrom_cons_of_ne (h : buffer.isFallback = true ∨ buffer.tier ≠ t) :
    heldFrom (buffer :: used) t = heldFrom used t := by
  rcases h with h | h <;> simp [heldFrom, h]

theorem heldFromSystem_cons_of_pooled (h : buffer.isFallback = false) :
    heldFromSystem (buffer :: used) = heldFromSystem used := by
  simp [heldFromSystem, h]

theorem heldFromSystem_cons_of_fallback (h : buffer.isFallback = true) :
    heldFromSystem (buffer :: used) = buffer.block :: heldFromSystem used := by
  simp [heldFromSystem, h]

theorem heldFrom_perm (h : used.Perm used') (t : PoolTier) :
    (heldFrom used t).Perm (heldFrom used' t) := (h.filter _).map _

theorem heldFromSystem_perm (h : used.Perm used') :
    (heldFromSystem used).Perm (heldFromSystem used') := (h.filter _).map _

end Held

/-! ## The invariant -/

/-- Every slot is free or handed out, and all memory is that of the slots and of the buffers
outside. -/
structure Conserved (pools : BufferPoolSet) (heap : Heap) (used : List Buffer) : Prop where
  custody : Custody pools heap used
  slots : ∀ t, ∃ free, FreeList (pools t).next stackEmpty (pools t).freeTop free ∧
    (pools t).blocks.Perm ((pools t).freeBlocks free ++ heldFrom used t)
  memory : heap.blocks.Perm (pools.slotBlocks ++ heldFromSystem used)

namespace Conserved

variable {pools pools' : BufferPoolSet} {heap heap' : Heap} {used used' : List Buffer}
  {buffer : Buffer}

theorem perm (h : Conserved pools heap used) (hperm : used.Perm used') :
    Conserved pools heap used' where
  custody := h.custody.perm hperm
  slots t := by
    obtain ⟨free, hfree, hslots⟩ := h.slots t
    exact ⟨free, hfree, hslots.trans ((heldFrom_perm hperm t).append_left _)⟩
  memory := h.memory.trans ((heldFromSystem_perm hperm).append_left _)

theorem of_blocks_eq (h : Conserved pools heap used) (heap' : Heap)
    (hblocks : heap'.blocks = heap.blocks) : Conserved pools heap' used :=
  ⟨h.custody.of_blocks_eq heap' hblocks, h.slots, hblocks ▸ h.memory⟩

theorem slotBlocks_congr (h : ∀ t, (pools' t).blocks = (pools t).blocks) :
    pools'.slotBlocks = pools.slotBlocks := by
  simp only [BufferPoolSet.slotBlocks, h]

/-- A slot moves from the free stack to a buffer outside. -/
theorem pop (h : Conserved pools heap used) {tier : PoolTier} {ptr allocSize : ℕ} {pool : TierPool}
    (hpop : (pools tier).pop = some ((ptr, allocSize), pool)) :
    Conserved (Function.update pools tier pool) heap (⟨ptr, allocSize, tier, false⟩ :: used) := by
  obtain ⟨hne, hblock, hnext, hbuffers⟩ := TierPool.pop_spec hpop
  have hpool : pool.blocks = (pools tier).blocks := by rw [TierPool.blocks, hbuffers]; rfl
  have hsame := Custody.blocks_update hpool
  refine ⟨h.custody.pop hpop, fun t => ?_, ?_⟩
  · obtain ⟨free, hfree, hslots⟩ := h.slots t
    by_cases ht : t = tier
    · subst ht
      obtain ⟨j, rest, hj, rfl, htop, hrest⟩ := hfree.pop hne
      obtain rfl : j = pool.freeTop := Option.some.inj (hj.symm.trans hnext)
      refine ⟨rest, ?_, ?_⟩
      · rw [Function.update_self]
        refine hrest.congr fun i _ => ?_
        rw [TierPool.next, hbuffers]
        rfl
      · rw [hsame]
        have hheld : heldFrom (⟨ptr, allocSize, t, false⟩ :: used) t =
            ⟨ptr, allocSize⟩ :: heldFrom used t :=
          @heldFrom_cons_of_pooled ⟨ptr, allocSize, t, false⟩ used rfl
        have hfirst : (pools t).freeBlocks ((pools t).freeTop :: rest) =
            ⟨ptr, allocSize⟩ :: (pools t).freeBlocks rest := by
          simp only [TierPool.freeBlocks, List.filterMap_cons, hblock]
        rw [hfirst] at hslots
        rw [Function.update_self, hheld]
        have hrest : pool.freeBlocks rest = (pools t).freeBlocks rest := by
          simp only [TierPool.freeBlocks, hpool]
        rw [hrest]
        exact hslots.trans List.perm_middle.symm
    · refine ⟨free, ?_, ?_⟩
      · rwa [Function.update_of_ne ht]
      · rw [Function.update_of_ne ht, heldFrom_cons_of_ne (Or.inr (Ne.symm ht))]
        exact hslots
  · rw [slotBlocks_congr hsame, heldFromSystem_cons_of_pooled rfl]
    exact h.memory

/-- New memory goes to a buffer outside. -/
theorem extend (h : Conserved pools heap used) (hfallback : buffer.isFallback = true)
    (hext : heap.ExtendedBy heap' [buffer.block]) : Conserved pools heap' (buffer :: used) := by
  refine ⟨h.custody.extend hfallback hext, fun t => ?_, ?_⟩
  · rw [heldFrom_cons_of_ne (Or.inl hfallback)]
    exact h.slots t
  · rw [hext.blocks, heldFromSystem_cons_of_fallback hfallback]
    exact (h.memory.cons buffer.block).trans List.perm_middle.symm

/-- A slot goes back to the free stack. -/
theorem push (h : Conserved pools heap (buffer :: used)) (hpooled : buffer.isFallback = false) :
    ∃ pool, (pools buffer.tier).push buffer.ptr = some pool ∧
      Conserved (Function.update pools buffer.tier pool) heap used := by
  obtain ⟨pool, hpush, hblocks, hcustody⟩ := h.custody.push hpooled
  have hsame := Custody.blocks_update hblocks
  obtain ⟨block, hblock, hstart, hnext, -, hother⟩ := TierPool.push_spec hpush
  have hmem := h.custody.fromPool buffer List.mem_cons_self hpooled
  obtain rfl : block = buffer.block :=
    h.custody.wellFormed.eq_of_start_eq (h.custody.pooled _ _ (List.mem_of_getElem? hblock))
      (h.custody.pooled _ _ hmem) hstart
  refine ⟨pool, hpush, hcustody, fun t => ?_, ?_⟩
  · obtain ⟨free, hfree, hslots⟩ := h.slots t
    by_cases ht : t = buffer.tier
    · subst ht
      -- the slot was handed out, so it is not on the free stack yet
      have hi : pool.freeTop ∉ free := by
        obtain ⟨l, hl, houtside⟩ := h.custody.free buffer.tier
        obtain rfl := hl.unique hfree
        exact fun hi => houtside _ hi _ hblock List.mem_cons_self
      have hlt := (List.getElem?_eq_some_iff.1 hblock).1
      have hroom := h.custody.room buffer.tier
      refine ⟨pool.freeTop :: free, ?_, ?_⟩
      · rw [Function.update_self]
        exact hfree.push hi (by omega) hnext hother
      · have hfirst : pool.freeBlocks (pool.freeTop :: free) =
            buffer.block :: (pools buffer.tier).freeBlocks free := by
          simp only [TierPool.freeBlocks, hblocks, List.filterMap_cons, hblock]
        rw [hsame, Function.update_self, hfirst, List.cons_append]
        rw [heldFrom_cons_of_pooled hpooled] at hslots
        exact hslots.trans List.perm_middle
    · refine ⟨free, ?_, ?_⟩
      · rwa [Function.update_of_ne ht]
      · rw [heldFrom_cons_of_ne (Or.inr (Ne.symm ht))] at hslots
        rwa [Function.update_of_ne ht]
  · rw [slotBlocks_congr hsame]
    have hmemory := h.memory
    rwa [heldFromSystem_cons_of_pooled hpooled] at hmemory

/-- Memory goes back to the system. -/
theorem dealloc (h : Conserved pools heap (buffer :: used)) (hfallback : buffer.isFallback = true) :
    Conserved pools (deallocBuffer buffer.ptr buffer.allocSize heap) used := by
  refine ⟨h.custody.dealloc hfallback, fun t => ?_, ?_⟩
  · obtain ⟨free, hfree, hslots⟩ := h.slots t
    rw [heldFrom_cons_of_ne (Or.inl hfallback)] at hslots
    exact ⟨free, hfree, hslots⟩
  · have hmemory := h.memory
    rw [heldFromSystem_cons_of_fallback hfallback] at hmemory
    have herase := (hmemory.trans List.perm_middle).erase buffer.block
    rwa [List.erase_cons_head] at herase

/-- **`allocate` conserves memory.** -/
theorem allocate (h : Conserved pools heap used) {alloc : Allocator} {n : ℕ}
    (halloc : pools.allocate alloc n heap = some (buffer, pools', heap')) :
    Conserved pools' heap' (buffer :: used) := by
  unfold BufferPoolSet.allocate at halloc
  dsimp only at halloc
  split at halloc
  · rename_i ptr allocSize pool hpop
    simp only [Option.some.injEq, Prod.mk.injEq] at halloc
    obtain ⟨rfl, rfl, rfl⟩ := halloc
    exact h.pop hpop
  · split at halloc
    · cases halloc
    · rename_i ptr allocSize heap₁ hbuffer
      simp only [Option.some.injEq, Prod.mk.injEq] at halloc
      obtain ⟨rfl, rfl, rfl⟩ := halloc
      exact h.extend rfl (TierPool.allocBuffer_spec h.custody.wellFormed hbuffer).2

/-- **`release` conserves memory.** -/
theorem release (h : Conserved pools heap (buffer :: used)) :
    Conserved (BufferPoolSet.release buffer pools heap).1
      (BufferPoolSet.release buffer pools heap).2 used := by
  unfold BufferPoolSet.release
  cases hf : buffer.isFallback with
  | true => exact h.dealloc hf
  | false =>
    obtain ⟨pool, hpush, hconserved⟩ := h.push hf
    rw [hpush]
    exact hconserved

end Conserved

/-! ## Creating the pools -/

namespace TierPool

/-- A new pool has all of its slots on the free stack. -/
theorem new_free {alloc : Allocator} {config : TierConfig} {pool : TierPool} {heap heap' : Heap}
    (hheap : heap.WellFormed) (h : TierPool.new alloc config heap = some (pool, heap')) :
    FreeList pool.next stackEmpty pool.freeTop (List.range pool.blocks.length) := by
  unfold TierPool.new at h
  dsimp only at h
  split at h
  · rename_i hpre
    split at h
    · cases h
    · rename_i buffers heap₁ hprealloc
      simp only [Option.some.injEq, Prod.mk.injEq] at h
      obtain ⟨rfl, rfl⟩ := h
      obtain ⟨added, hadded, hlen, -, -, hlinks⟩ := prealloc_spec hheap hprealloc
      obtain rfl : buffers = added := hadded
      have hsize : config.poolSize.toNat ≤ stackEmpty := by
        have := config.poolSize.toNat_lt
        unfold stackEmpty
        omega
      have hcount : (TierPool.blocks ⟨buffers, if config.preallocate ∧ 0 < config.poolSize.toNat
          then 0 else stackEmpty⟩).length = config.poolSize.toNat := by
        simp [blocks, hlen]
      rw [hcount, List.range_eq_range']
      simp only [hpre, true_and]
      refine FreeList.range' _ 0 hsize fun i _ hi => ?_
      simpa [next] using hlinks i hi
  · rename_i hpre
    simp only [Option.some.injEq, Prod.mk.injEq] at h
    obtain ⟨rfl, rfl⟩ := h
    simp only [hpre, Bool.false_eq_true, false_and, if_false]
    exact ⟨.nil, List.nodup_nil⟩

theorem freeBlocks_range (pool : TierPool) :
    pool.freeBlocks (List.range pool.blocks.length) = pool.blocks := by
  unfold freeBlocks
  induction pool.blocks using List.reverseRecOn with
  | nil => rfl
  | append_singleton blocks b ih =>
    have hsame : (List.range blocks.length).filterMap (fun i => (blocks ++ [b])[i]?) =
        (List.range blocks.length).filterMap fun i => blocks[i]? :=
      List.filterMap_congr fun i hi => List.getElem?_append_left (List.mem_range.1 hi)
    rw [List.length_append, List.length_singleton, List.range_succ, List.filterMap_append, hsame, ih]
    simp

end TierPool

/-- When the pools are created every slot is free, and nothing else is allocated. -/
theorem Conserved.new {alloc : Allocator} {configs : PoolTier → TierConfig}
    {pools : BufferPoolSet} {heap : Heap}
    (h : BufferPoolSet.new alloc configs .empty = some (pools, heap)) :
    Conserved pools heap [] := by
  have hcustody := (Custody.new h).1
  simp only [BufferPoolSet.new, Option.bind_eq_bind, Option.bind_eq_some_iff, Prod.exists,
    Option.some.injEq, Prod.mk.injEq] at h
  obtain ⟨small, heap₁, hsmall, medium, heap₂, hmedium, large, heap₃, hlarge, huge, heap₄, hhuge,
    hpools, rfl⟩ := h
  have esmall : pools .small = small := by rw [← hpools]
  have emedium : pools .medium = medium := by rw [← hpools]
  have elarge : pools .large = large := by rw [← hpools]
  have ehuge : pools .huge = huge := by rw [← hpools]
  have e₁ := (TierPool.new_spec .empty hsmall).1
  have e₂ := (TierPool.new_spec e₁.wellFormed hmedium).1
  have e₃ := (TierPool.new_spec e₂.wellFormed hlarge).1
  have e₄ := (TierPool.new_spec e₃.wellFormed hhuge).1
  have hfree : ∀ t, FreeList (pools t).next stackEmpty (pools t).freeTop
      (List.range (pools t).blocks.length) := by
    intro t
    cases t with
    | small => rw [esmall]; exact TierPool.new_free .empty hsmall
    | medium => rw [emedium]; exact TierPool.new_free e₁.wellFormed hmedium
    | large => rw [elarge]; exact TierPool.new_free e₂.wellFormed hlarge
    | huge => rw [ehuge]; exact TierPool.new_free e₃.wellFormed hhuge
  refine ⟨hcustody, fun t => ⟨_, hfree t, ?_⟩, ?_⟩
  · rw [TierPool.freeBlocks_range]
    exact (List.append_nil _).symm ▸ List.Perm.refl _
  · have hblocks := (((e₁.trans e₂).trans e₃).trans e₄).blocks
    rw [hblocks, BufferPoolSet.slotBlocks]
    simp only [BufferPoolSet.tiers, List.flatMap_cons, List.flatMap_nil, esmall, emedium, elarge,
      ehuge, Heap.empty, heldFromSystem, List.filter_nil, List.map_nil, List.append_nil]
    exact (List.reverse_perm _).append ((List.reverse_perm _).append
      ((List.reverse_perm _).append (List.reverse_perm _)))

/-! ## Every operation -/

namespace ResourceManager

/-- Conservation in a manager. -/
def ConservedManager (m : ResourceManager) : Prop := Conserved m.pools m.heap (used m.table)

namespace ConservedManager

variable {m : ResourceManager} {table : ResourceTable} {handle : BufferHandle}
  {entry entry' : ResourceEntry}

/-- The buffer of an entry that leaves goes back. -/
theorem retire (h : ConservedManager m) (hrem : m.table.Removed table handle entry) :
    Conserved (ResourceManager.retire entry m.pools m.heap).1
      (ResourceManager.retire entry m.pools m.heap).2 (used table) :=
  Conserved.release ((Conserved.perm h (Stored.used_perm_cons hrem.live)).of_blocks_eq
    (zeroPayload entry.bufferPtr entry.payloadCapacity m.heap) rfl)

/-- An entry that changes keeps its buffer. -/
theorem replace (h : ConservedManager m) (hrep : m.table.Replaced table handle entry entry')
    (hsame : entry'.buffer = entry.buffer) {heap : Heap} (hblocks : heap.blocks = m.heap.blocks) :
    Conserved m.pools heap (used table) := by
  obtain ⟨rest, hlive, hlive'⟩ := hrep.live
  refine (Conserved.of_blocks_eq (Conserved.perm h (Stored.used_perm_cons hlive)) heap hblocks).perm ?_
  rw [← hsame]
  exact (Stored.used_perm_cons hlive').symm

theorem forceReclaim_loop (h : ConservedManager m) (ids : List ResourceId)
    (reclaimed : List ResourceReclaimed) :
    ConservedManager (ids.foldl forceReclaimOne (m, reclaimed)).1 := by
  induction ids generalizing m reclaimed with
  | nil => exact h
  | cons id rest ih =>
    rw [List.foldl_cons]
    rcases forceReclaimOne_cases m reclaimed id with ⟨-, heq⟩ | ⟨entry, table, -, hrem, heq⟩ <;>
      rw [heq]
    · exact ih h _
    · refine ih ?_ _
      exact h.retire hrem

theorem reclaimFlow_loop (h : ConservedManager m) (ids : List ResourceId)
    (stats : FlowResourceStats) :
    ConservedManager (ids.foldl reclaimFlowOne (m, stats)).1 := by
  induction ids generalizing m stats with
  | nil => exact h
  | cons id rest ih =>
    rw [List.foldl_cons]
    rcases reclaimFlowOne_cases m stats id with ⟨-, heq⟩ | ⟨entry, table, -, hrem, heq⟩ <;>
      rw [heq]
    · exact ih h _
    · refine ih ?_ _
      exact h.retire hrem

theorem reclaimFlow (h : ConservedManager m) (f : FlowId) (hash : HashOrder) :
    ConservedManager (m.reclaimFlowBuffers f hash).2 :=
  reclaimFlow_loop (m := { m with flowResources := Function.update m.flowResources f ∅ }) h _ {}

/-- **Every operation conserves memory.** -/
theorem step (h : ConservedManager m) (op : Op) : ConservedManager (m.step op).2 := by
  have hstepped := m.step_cases op
  generalize (m.step op).1 = reply, (m.step op).2 = m' at hstepped ⊢
  cases hstepped with
  | registeredFlow => exact h
  | registeredComponent => exact h
  | refused => exact h
  | exhausted => exact h
  | rolledBack alloc owner n flowId budgets e buffer pools heap _ _ halloc =>
    exact (Conserved.allocate h halloc).release
  | admitted alloc owner n flowId budgets buffer pools heap id table _ _ halloc hins =>
    exact (Conserved.allocate h halloc).perm (Stored.used_perm_cons hins.live).symm
  | dropped handle caller entry table _ _ hrem => exact h.retire hrem
  | charged => exact h
  | moved handle sender recipient entry budgets hget =>
    exact h.replace (.of_put hget { entry with owner := recipient } rfl) rfl rfl
  | borrowStarted handle borrower entry borrowed hget hok =>
    have hsame := (borrowStart_same hok).1
    exact h.replace (.of_put hget borrowed hsame.generation) hsame.buffer rfl
  | borrowEnded handle borrower entry returned hget hok =>
    have hsame := (borrowEnd_same hok).1
    exact h.replace (.of_put hget returned hsame.generation) hsame.buffer rfl
  | read => exact h
  | wrote handle caller offset data flowId entry hget =>
    exact h.replace (.of_put hget (writtenEntry entry _) rfl) rfl rfl
  | forceReclaimed component hash =>
    exact forceReclaim_loop
      (m := { m with componentResources := Function.update m.componentResources component ∅ }) h _ []
  | flowReclaimed flowId hash => exact h.reclaimFlow flowId hash
  | flowReleased flowId hash => exact h.reclaimFlow flowId hash

end ConservedManager

end ResourceManager

namespace StartedManager

/-- **Memory is conserved.**  After every sequence of calls, each slot of each pool is on the
free stack of the pool or is the memory of one live entry, and the allocated memory consists of
the slots and of the memory of the live entries that the system allocator served. -/
theorem memory_conserved (s : StartedManager) (ops : List ResourceManager.Op) :
    ∃ free : PoolTier → List ℕ, (∀ t, FreeList ((s.after ops).pools t).next stackEmpty
        ((s.after ops).pools t).freeTop (free t) ∧
      (s.slots t).Perm (((s.after ops).pools t).freeBlocks (free t) ++
        heldFrom (ResourceManager.used (s.after ops).table) t)) ∧
    (s.after ops).heap.blocks.Perm (BufferPoolSet.tiers.flatMap s.slots ++
      heldFromSystem (ResourceManager.used (s.after ops).table)) := by
  have hconserved : (s.after ops).ConservedManager := by
    refine s.after_invariant ?_ (fun m op h => h.step op) ops
    rw [ResourceManager.ConservedManager, ResourceManager.used, s.iter_manager]
    exact Conserved.new s.manager_eq.2.2.2.2.2.1
  have hslots := (s.stored_after ops).slots
  choose free hfree hheld using hconserved.slots
  refine ⟨free, fun t => ⟨hfree t, hslots t ▸ hheld t⟩, ?_⟩
  have hmemory := hconserved.memory
  rwa [BufferPoolSet.slotBlocks, funext hslots] at hmemory

end StartedManager

end Torvyn
