/-
# Isolation of buffer contents

Buffers are recycled through the pools, and a payload is zeroed up to its capacity when its
buffer goes back. As long as no pooled request exceeds the buffers of its pool, what is read
through a handle is what was last written through it since its allocation.
-/
import Torvyn.Resources.Bounds

namespace Torvyn

namespace ResourceManager

/-! ## What a handle was given -/

/-- The byte last written at `i` through the handle since it was allocated, zero when there
is none. -/
def lastWritten (handle : BufferHandle) (i : ℕ) : Trace → UInt8
  | [] => 0
  | (.allocate _ _ _ _, .handle (.ok h)) :: earlier =>
    if h = handle then 0 else lastWritten handle i earlier
  | (.writePayload h _ offset data _, .done (.ok ())) :: earlier =>
    if h = handle ∧ offset ≤ i then (data[i - offset]?).getD (lastWritten handle i earlier)
    else lastWritten handle i earlier
  | _ :: earlier => lastWritten handle i earlier

/-- The contents of all handles. -/
abbrev Contents := BufferHandle → ℕ → UInt8

/-- The contents that a trace leaves. -/
def written (trace : Trace) : Contents :=
  fun handle i => lastWritten handle i trace

/-- A request that a pool serves does not exceed the buffers of that pool. -/
def FitsPool (config : ResourceManagerConfig) (m : ResourceManager) : Op → Prop
  | .allocate _ _ n _ => (m.pools (.forCapacity n)).pop = none ∨
      n ≤ (config.poolConfigs (.forCapacity n)).tier.capacity
  | _ => True

/-! ## The invariant -/

/-- The payload of a live entry holds the contents of its handle up to its capacity and zeros
after it, and a slot that is not handed out holds zeros. -/
structure Isolated (slots : PoolTier → List Block) (contents : Contents) (table : ResourceTable)
    (pools : BufferPoolSet) (heap : Heap) : Prop where
  stored : Stored slots table pools heap
  room : ∀ p ∈ table.iter, headerSize + p.2.payloadCapacity ≤ p.2.allocSize
  content : ∀ p ∈ table.iter, ∀ i, i < p.2.payloadCapacity →
    heap.memory (p.2.bufferPtr + headerSize + i) = contents ⟨p.1⟩ i
  tail : ∀ p ∈ table.iter, ∀ i, p.2.payloadCapacity ≤ i → headerSize + i < p.2.allocSize →
    heap.memory (p.2.bufferPtr + headerSize + i) = 0
  zero : ∀ t b, b ∈ slots t → b ∉ (used table).map Buffer.block → ∀ i, headerSize + i < b.size →
    heap.memory (b.start + headerSize + i) = 0

namespace Isolated

variable {slots : PoolTier → List Block} {contents : Contents} {table table' : ResourceTable}
  {pools pools' : BufferPoolSet} {heap heap' : Heap} {handle : BufferHandle}
  {entry entry' : ResourceEntry} {id : ResourceId}

/-- A payload byte lies in the block of its buffer. -/
theorem covers_payload {b : Block} {i : ℕ} (h : headerSize + i < b.size) :
    b.Covers (b.start + headerSize + i) := by
  unfold Block.Covers
  omega

/-- The block of a live entry is allocated. -/
theorem mem_blocks (h : Isolated slots contents table pools heap)
    {p : ResourceId × ResourceEntry} (hp : p ∈ table.iter) : p.2.buffer.block ∈ heap.blocks :=
  h.stored.custody.allocated _ (List.mem_map.2 ⟨p, hp, rfl⟩)

/-- The invariant looks at the memory of live entries and of slots only. -/
theorem of_memory_eq (h : Isolated slots contents table pools heap)
    (hstored : Stored slots table pools' heap')
    (hmemory : ∀ b ∈ heap.blocks, ∀ a, b.Covers a → heap'.memory a = heap.memory a) :
    Isolated slots contents table pools' heap' where
  stored := hstored
  room := h.room
  content p hp i hi := by
    have hroom := h.room p hp
    refine (hmemory _ (h.mem_blocks hp) _ (covers_payload (b := p.2.buffer.block) ?_)).trans
      (h.content p hp i hi)
    show headerSize + i < p.2.allocSize
    omega
  tail p hp i hi hlt :=
    (hmemory _ (h.mem_blocks hp) _ (covers_payload (b := p.2.buffer.block) hlt)).trans
      (h.tail p hp i hi hlt)
  zero t b hb hfree i hi := by
    have hblock := h.stored.custody.pooled t b (by rwa [h.stored.slots])
    exact (hmemory b hblock _ (covers_payload hi)).trans (h.zero t b hb hfree i hi)

/-- The contents of handles that are not live do not matter. -/
theorem congr_contents {contents' : Contents} (h : Isolated slots contents table pools heap)
    (heq : ∀ p ∈ table.iter, contents' ⟨p.1⟩ = contents ⟨p.1⟩) :
    Isolated slots contents' table pools heap where
  stored := h.stored
  room := h.room
  content p hp i hi := by rw [heq p hp, h.content p hp i hi]
  tail := h.tail
  zero := h.zero

/-- Two live entries have disjoint blocks. -/
theorem disjoint_of_ne (h : Isolated slots contents table pools heap)
    {p q : ResourceId × ResourceEntry} (hp : p ∈ table.iter) (hq : q ∈ table.iter) (hne : p ≠ q) :
    p.2.buffer.block.Disjoint q.2.buffer.block := by
  refine h.stored.custody.wellFormed.disjoint_of_ne (h.mem_blocks hp) (h.mem_blocks hq) fun heq => ?_
  have hnodup := h.stored.custody.exclusive
  rw [used, List.map_map] at hnodup
  exact hne (List.inj_on_of_nodup_map hnodup hp hq heq)

/-- A new entry starts with a zero payload. -/
theorem accept (h : Isolated slots contents table pools heap) {alloc : Allocator} {owner : OwnerId}
    {n : ℕ} {flowId : FlowId} {buffer : Buffer} (hn : n ≤ maxBufferSize)
    (halloc : pools.allocate alloc n heap = some (buffer, pools', heap'))
    (hroom : buffer.isFallback = false → headerSize + actualCapacity n ≤ buffer.allocSize)
    (hins : table.Inserted table' id (freshEntry owner n flowId buffer id.generation)) :
    Isolated slots (Function.update contents ⟨id⟩ fun _ => 0) table' pools' heap' := by
  have hstored := h.stored.accept hn halloc hins
  obtain ⟨hcustody, hblocks, htier, hserved⟩ := h.stored.custody.allocate halloc
  have hold : ∀ b ∈ heap.blocks, ∀ a, b.Covers a → heap'.memory a = heap.memory a := by
    cases hserved with
    | pool _ heq => exact fun b _ a _ => by rw [heq]
    | system _ _ hext => exact hext.kept
  -- the payload of the new buffer is zero: a free slot, or new memory
  have hzero : ∀ i, headerSize + i < buffer.allocSize →
      heap'.memory (buffer.ptr + headerSize + i) = 0 := by
    intro i hi
    cases hserved with
    | pool hf heq =>
      have hmem := hcustody.fromPool buffer List.mem_cons_self hf
      rw [hblocks, h.stored.slots] at hmem
      have hfree := (List.nodup_cons.1 hcustody.exclusive).1
      rw [heq]
      exact h.zero buffer.tier buffer.block hmem hfree i hi
    | system _ _ hext =>
      exact hext.zero _ List.mem_cons_self _ (covers_payload (b := buffer.block) hi)
  have hsize : headerSize + actualCapacity n ≤ buffer.allocSize := by
    cases hserved with
    | pool hf _ => exact hroom hf
    | system _ hsize _ => rw [hsize, htier, actualCapacity]
  have hother : ∀ p ∈ table.iter, (⟨p.1⟩ : BufferHandle) ≠ ⟨id⟩ := by
    intro p hp heq
    exact hins.fresh (BufferHandle.mk.inj heq ▸ List.mem_map_of_mem hp)
  refine ⟨hstored, fun p hp => ?_, fun p hp i hi => ?_, fun p hp i hi hlt => ?_,
    fun t b hb hfree i hi => ?_⟩
  · rcases List.mem_cons.1 (hins.live.mem_iff.1 hp) with rfl | hp
    · exact hsize
    · exact h.room p hp
  · rcases List.mem_cons.1 (hins.live.mem_iff.1 hp) with rfl | hp
    · rw [Function.update_self]
      have hi : i < actualCapacity n := hi
      exact hzero i (by omega)
    · have hsz := h.room p hp
      rw [Function.update_of_ne (hother p hp), ← h.content p hp i hi]
      refine hold _ (h.mem_blocks hp) _ (covers_payload (b := p.2.buffer.block) ?_)
      show headerSize + i < p.2.allocSize
      omega
  · rcases List.mem_cons.1 (hins.live.mem_iff.1 hp) with rfl | hp
    · exact hzero i hlt
    · rw [← h.tail p hp i hi hlt]
      exact hold _ (h.mem_blocks hp) _ (covers_payload (b := p.2.buffer.block) hlt)
  · have hblock := h.stored.custody.pooled t b (by rwa [h.stored.slots])
    rw [hold b hblock _ (covers_payload hi)]
    refine h.zero t b hb (fun hmem => hfree ?_) i hi
    exact ((Stored.used_perm_cons hins.live).map _).mem_iff.2 (List.mem_cons_of_mem _ hmem)

/-- An allocation that is undone changes no payload. -/
theorem rollBack (h : Isolated slots contents table pools heap) {alloc : Allocator} {n : ℕ}
    {buffer : Buffer} (halloc : pools.allocate alloc n heap = some (buffer, pools', heap')) :
    Isolated slots contents table (BufferPoolSet.release buffer pools' heap').1
      (BufferPoolSet.release buffer pools' heap').2 := by
  refine h.of_memory_eq (h.stored.rollBack halloc) fun b hb a ha => ?_
  obtain ⟨hcustody, -, -, hserved⟩ := h.stored.custody.allocate halloc
  rw [hcustody.release.2.2]
  cases hserved with
  | pool _ heq => rw [heq]
  | system _ _ hext => exact hext.kept b hb a ha

/-- The buffer of an entry that leaves goes back with a zero payload. -/
theorem retire (h : Isolated slots contents table pools heap)
    (hrem : table.Removed table' handle entry) :
    Isolated slots contents table' (ResourceManager.retire entry pools heap).1
      (ResourceManager.retire entry pools heap).2 := by
  have hstored := h.stored.retire hrem
  have hentry : (handle.resourceId, entry) ∈ table.iter := hrem.live.mem_iff.2 List.mem_cons_self
  have hroom : headerSize + entry.payloadCapacity ≤ entry.allocSize := h.room _ hentry
  have hmemory : (ResourceManager.retire entry pools heap).2.memory =
      (zeroPayload entry.bufferPtr entry.payloadCapacity heap).memory :=
    (((h.stored.custody.perm (Stored.used_perm_cons hrem.live)).of_blocks_eq
      (zeroPayload entry.bufferPtr entry.payloadCapacity heap) rfl).release).2.2
  -- another block keeps its bytes
  have hother : ∀ b, entry.buffer.block.Disjoint b → ∀ a, b.Covers a →
      (ResourceManager.retire entry pools heap).2.memory a = heap.memory a := by
    intro b hdisjoint a ha
    rw [hmemory]
    have hout := hdisjoint.symm.not_covers ha
    simp only [Block.Covers, ResourceEntry.buffer, Buffer.block] at hout
    exact Heap.fill_memory_of_not_mem (by omega)
  have hzero : ∀ i, headerSize + i < entry.allocSize →
      (ResourceManager.retire entry pools heap).2.memory (entry.bufferPtr + headerSize + i) = 0 := by
    intro i hi
    rw [hmemory]
    by_cases hcap : i < entry.payloadCapacity
    · exact Heap.fill_memory_of_mem (by omega) (by omega)
    · refine (Heap.fill_memory_of_not_mem (by omega)).trans ?_
      exact h.tail _ hentry i (Nat.le_of_not_lt hcap) hi
  have hlive : ∀ p ∈ table'.iter, p ∈ table.iter ∧ entry.buffer.block.Disjoint p.2.buffer.block := by
    intro p hp
    have hmem : p ∈ table.iter := hrem.live.mem_iff.2 (List.mem_cons_of_mem _ hp)
    refine ⟨hmem, h.disjoint_of_ne hentry hmem ?_⟩
    rintro rfl
    exact hrem.not_mem (List.mem_map_of_mem hp)
  refine ⟨hstored, fun p hp => h.room p (hlive p hp).1, fun p hp i hi => ?_,
    fun p hp i hi hlt => ?_, fun t b hb hfree i hi => ?_⟩
  · obtain ⟨hmem, hdisjoint⟩ := hlive p hp
    have hsz := h.room p hmem
    rw [← h.content p hmem i hi]
    refine hother _ hdisjoint _ (covers_payload (b := p.2.buffer.block) ?_)
    show headerSize + i < p.2.allocSize
    omega
  · obtain ⟨hmem, hdisjoint⟩ := hlive p hp
    rw [← h.tail p hmem i hi hlt]
    exact hother _ hdisjoint _ (covers_payload (b := p.2.buffer.block) hlt)
  · by_cases heq : b = entry.buffer.block
    · subst heq
      exact hzero i hi
    · have hblock := h.stored.custody.pooled t b (by rwa [h.stored.slots])
      have hdisjoint := h.stored.custody.wellFormed.disjoint_of_ne (h.mem_blocks hentry) hblock
        (Ne.symm heq)
      rw [hother b hdisjoint _ (covers_payload hi)]
      refine h.zero t b hb (fun hmem => hfree ?_) i hi
      rw [((Stored.used_perm_cons hrem.live).map _).mem_iff] at hmem
      exact (List.mem_cons.1 hmem).resolve_left heq

/-- An entry that changes keeps its payload. -/
theorem replace (h : Isolated slots contents table pools heap)
    (hrep : table.Replaced table' handle entry entry') (hsame : SameResource entry entry')
    (hlen : entry'.payloadLen ≤ entry'.payloadCapacity) :
    Isolated slots contents table' pools heap := by
  have hstored := h.stored.replace hrep hsame hlen rfl
  obtain ⟨rest, hlive, hlive'⟩ := hrep.live
  obtain ⟨hptr, hsize, -, -⟩ := Buffer.mk.inj hsame.buffer
  have hold : ∀ p ∈ table'.iter, ∃ q ∈ table.iter, q.1 = p.1 ∧ q.2.buffer = p.2.buffer ∧
      q.2.payloadCapacity = p.2.payloadCapacity := by
    intro p hp
    rcases List.mem_cons.1 (hlive'.mem_iff.1 hp) with rfl | hp
    · exact ⟨_, hlive.mem_iff.2 List.mem_cons_self, rfl, hsame.buffer.symm,
        hsame.payloadCapacity.symm⟩
    · exact ⟨p, hlive.mem_iff.2 (List.mem_cons_of_mem _ hp), rfl, rfl, rfl⟩
  have hused : ((used table').map Buffer.block).Perm ((used table).map Buffer.block) := by
    refine ((Stored.used_perm_cons hlive').trans ?_).map _
    rw [hsame.buffer]
    exact (Stored.used_perm_cons hlive).symm
  refine ⟨hstored, fun p hp => ?_, fun p hp i hi => ?_, fun p hp i hi hlt => ?_,
    fun t b hb hfree => h.zero t b hb fun hmem => hfree (hused.mem_iff.2 hmem)⟩
  all_goals
    obtain ⟨q, hq, hid, hbuffer, hcap⟩ := hold p hp
    obtain ⟨hptr, hsize, -, -⟩ := Buffer.mk.inj hbuffer
  · rw [← hcap, ← hsize]
    exact h.room q hq
  · rw [← hptr, ← hid]
    exact h.content q hq i (hcap ▸ hi)
  · rw [← hptr]
    exact h.tail q hq i (hcap ▸ hi) (hsize ▸ hlt)

/-- The contents after a write. -/
def overwrite (contents : Contents) (handle : BufferHandle) (offset : ℕ) (data : List UInt8) :
    Contents :=
  Function.update contents handle fun i =>
    if offset ≤ i then (data[i - offset]?).getD (contents handle i) else contents handle i

/-- A write inside the capacity changes the contents of its own handle only. -/
theorem store (h : Isolated slots contents table pools heap)
    (hget : table.get handle = .ok entry) {offset : ℕ} {data : List UInt8}
    (hle : offset + data.length ≤ entry.payloadCapacity) :
    Isolated slots (overwrite contents handle offset data) table pools
      (Torvyn.writePayload entry.bufferPtr offset data heap) := by
  have hmem : (handle.resourceId, entry) ∈ table.iter := ResourceTable.get_eq_ok.1 hget
  have hroom : headerSize + entry.payloadCapacity ≤ entry.allocSize := h.room _ hmem
  have hother : ∀ b, entry.buffer.block.Disjoint b → ∀ a, b.Covers a →
      (Torvyn.writePayload entry.bufferPtr offset data heap).memory a = heap.memory a := by
    intro b hdisjoint a ha
    have hout := hdisjoint.symm.not_covers ha
    simp only [Block.Covers, ResourceEntry.buffer, Buffer.block] at hout
    exact Heap.store_memory_of_not_mem (by omega)
  have hown : ∀ i, (Torvyn.writePayload entry.bufferPtr offset data heap).memory
      (entry.bufferPtr + headerSize + i) =
      if offset ≤ i then (data[i - offset]?).getD (heap.memory (entry.bufferPtr + headerSize + i))
      else heap.memory (entry.bufferPtr + headerSize + i) := by
    intro i
    simp only [Torvyn.writePayload, Heap.store, Nat.add_le_add_iff_left, Nat.add_sub_add_left]
  have hcases : ∀ p ∈ table.iter, p = (handle.resourceId, entry) ∨
      (⟨p.1⟩ : BufferHandle) ≠ handle ∧ entry.buffer.block.Disjoint p.2.buffer.block := by
    intro p hp
    by_cases heq : p = (handle.resourceId, entry)
    · exact .inl heq
    · refine .inr ⟨?_, h.disjoint_of_ne hmem hp (Ne.symm heq)⟩
      rintro rfl
      exact heq (List.inj_on_of_nodup_map table.nodup_iter hp hmem rfl)
  refine ⟨⟨h.stored.custody.of_blocks_eq _ rfl, h.stored.slots, h.stored.entries⟩, h.room,
    fun p hp i hi => ?_, fun p hp i hi hlt => ?_, fun t b hb hfree i hi => ?_⟩
  · rcases hcases p hp with rfl | ⟨hne, hdisjoint⟩
    · simp only [hown, overwrite, Function.update_self, h.content _ hmem i hi]
    · have hsz := h.room p hp
      rw [overwrite, Function.update_of_ne hne, ← h.content p hp i hi]
      refine hother _ hdisjoint _ (covers_payload (b := p.2.buffer.block) ?_)
      show headerSize + i < p.2.allocSize
      omega
  · rcases hcases p hp with rfl | ⟨-, hdisjoint⟩
    · have hcap : entry.payloadCapacity ≤ i := hi
      rw [hown, if_pos (by omega), List.getElem?_eq_none (by omega)]
      exact h.tail _ hmem i hi hlt
    · rw [← h.tail p hp i hi hlt]
      exact hother _ hdisjoint _ (covers_payload (b := p.2.buffer.block) hlt)
  · have hblock := h.stored.custody.pooled t b (by rwa [h.stored.slots])
    have hne : entry.buffer.block ≠ b := by
      rintro rfl
      exact hfree (List.mem_map_of_mem (List.mem_map.2 ⟨_, hmem, rfl⟩))
    have hdisjoint := h.stored.custody.wellFormed.disjoint_of_ne (h.mem_blocks hmem) hblock hne
    rw [hother b hdisjoint _ (covers_payload hi)]
    exact h.zero t b hb hfree i hi

end Isolated

/-! ## Every operation -/

/-- Isolation in a manager. -/
def IsolatedManager (slots : PoolTier → List Block) (contents : Contents) (m : ResourceManager) :
    Prop :=
  Isolated slots contents m.table m.pools m.heap

namespace IsolatedManager

variable {slots : PoolTier → List Block} {contents : Contents} {m : ResourceManager}

theorem forceReclaim_loop (h : IsolatedManager slots contents m) (ids : List ResourceId)
    (reclaimed : List ResourceReclaimed) :
    IsolatedManager slots contents (ids.foldl forceReclaimOne (m, reclaimed)).1 := by
  induction ids generalizing m reclaimed with
  | nil => exact h
  | cons id rest ih =>
    rw [List.foldl_cons]
    rcases forceReclaimOne_cases m reclaimed id with ⟨-, heq⟩ | ⟨entry, table, -, hrem, heq⟩
    · rw [heq]
      exact ih h _
    · rw [heq]
      refine ih ?_ _
      exact h.retire hrem

theorem reclaimFlow_loop (h : IsolatedManager slots contents m) (ids : List ResourceId)
    (stats : FlowResourceStats) :
    IsolatedManager slots contents (ids.foldl reclaimFlowOne (m, stats)).1 := by
  induction ids generalizing m stats with
  | nil => exact h
  | cons id rest ih =>
    rw [List.foldl_cons]
    rcases reclaimFlowOne_cases m stats id with ⟨-, heq⟩ | ⟨entry, table, -, hrem, heq⟩
    · rw [heq]
      exact ih h _
    · rw [heq]
      refine ih ?_ _
      exact h.retire hrem

theorem forceReclaim (h : IsolatedManager slots contents m) (c : ComponentId) (hash : HashOrder) :
    IsolatedManager slots contents (m.forceReclaim c hash).2 :=
  forceReclaim_loop
    (m := { m with componentResources := Function.update m.componentResources c ∅ }) h _ []

theorem reclaimFlow (h : IsolatedManager slots contents m) (f : FlowId) (hash : HashOrder) :
    IsolatedManager slots contents (m.reclaimFlowBuffers f hash).2 :=
  reclaimFlow_loop (m := { m with flowResources := Function.update m.flowResources f ∅ }) h _ {}

theorem transition (h : IsolatedManager slots contents m) {handle : BufferHandle}
    {change : BufferHandle → ResourceEntry → Except ResourceError ResourceEntry}
    (hchange : ∀ {entry entry'}, change handle entry = .ok entry' →
      SameResource entry entry' ∧ entry'.owner = entry.owner ∧
      entry'.payloadLen = entry.payloadLen) :
    IsolatedManager slots contents (ResourceManager.transition change handle m).2 := by
  rcases transition_cases change handle m with ⟨e, heq⟩ | ⟨entry, entry', hget, hok, heq⟩
  · rw [heq]
    exact h
  · obtain ⟨hsame, -, hlen⟩ := hchange hok
    have hentry := (h.stored.entry_of_get hget).len_le
    rw [heq]
    refine h.replace (.of_put hget entry' hsame.generation) hsame ?_
    rw [hlen, hsame.payloadCapacity]
    exact hentry

/-- A request that fits leaves room for its capacity in a pooled buffer. -/
theorem room_of_fits {config : ResourceManagerConfig} (h : IsolatedManager slots contents m)
    (hslots : ∀ t b, b ∈ slots t → b.size = headerSize + (config.poolConfigs t).tier.capacity)
    {alloc : Allocator} {owner : OwnerId} {n : ℕ} {flowId : FlowId}
    (hfits : FitsPool config m (.allocate alloc owner n flowId)) {buffer : Buffer}
    {pools : BufferPoolSet} {heap : Heap}
    (halloc : m.pools.allocate alloc n m.heap = some (buffer, pools, heap))
    (hpooled : buffer.isFallback = false) : headerSize + actualCapacity n ≤ buffer.allocSize := by
  obtain ⟨hcustody, hblocks, htier, -⟩ := h.stored.custody.allocate halloc
  have hmem := hcustody.fromPool buffer List.mem_cons_self hpooled
  rw [hblocks, h.stored.slots, htier] at hmem
  have hsize : buffer.allocSize = headerSize +
      (config.poolConfigs (.forCapacity n)).tier.capacity := hslots _ _ hmem
  rcases hfits with hpop | hn
  · -- an empty pool hands out no buffer of its own
    simp only [BufferPoolSet.allocate, hpop] at halloc
    split at halloc
    · cases halloc
    · simp only [Option.some.injEq, Prod.mk.injEq] at halloc
      rw [← halloc.1] at hpooled
      cases hpooled
  · have hle := max_le (PoolTier.capacity_forCapacity_le hn) hn
    rw [hsize, actualCapacity]
    omega

/-- Every operation that fits keeps isolation, with the contents that its call leaves. -/
theorem step {config : ResourceManagerConfig} {trace : Trace}
    (h : IsolatedManager slots (written trace) m)
    (hslots : ∀ t b, b ∈ slots t → b.size = headerSize + (config.poolConfigs t).tier.capacity)
    (op : Op) (hfits : FitsPool config m op) :
    IsolatedManager slots (written ((op, (m.step op).1) :: trace)) (m.step op).2 := by
  cases op with
  | registerFlow flowId => exact h
  | registerComponent component maxOwnedBytes => exact h
  | allocate alloc owner n flowId =>
    have hcases := allocate_cases alloc owner n flowId m
    simp only [ResourceManager.step]
    generalize m.allocate alloc owner n flowId = result at hcases ⊢
    cases hcases with
    | refused e => exact h
    | exhausted budgets e => exact h
    | rolledBack budgets e buffer pools heap _ _ halloc => exact h.rollBack halloc
    | admitted budgets buffer pools heap id table hn _ halloc hins =>
      have haccept := h.accept hn halloc (h.room_of_fits hslots hfits halloc) hins
      refine haccept.congr_contents fun p _ => funext fun i => ?_
      show (if (⟨id⟩ : BufferHandle) = ⟨p.1⟩ then 0 else written trace ⟨p.1⟩ i) = _
      by_cases hid : p.1 = id
      · subst hid
        rw [if_pos rfl, Function.update_self]
      · have hne : (⟨p.1⟩ : BufferHandle) ≠ ⟨id⟩ := fun heq => hid (BufferHandle.mk.inj heq)
        rw [if_neg hne.symm, Function.update_of_ne hne]
  | release handle caller =>
    have hcases := release_cases handle caller m
    simp only [ResourceManager.step]
    generalize m.release handle caller = result at hcases ⊢
    cases hcases with
    | refused e => exact h
    | dropped entry table hget hcheck hrem => exact h.retire hrem
  | transferOwnership handle sender recipient =>
    have hcases := transfer_cases handle sender recipient m
    simp only [ResourceManager.step]
    generalize m.transferOwnership handle sender recipient = result at hcases ⊢
    cases hcases with
    | refused e => exact h
    | charged entry budgets e => exact h
    | moved entry budgets hget hbudgets hcheck =>
      exact h.replace (.of_put hget { entry with owner := recipient } rfl)
        ⟨rfl, rfl, rfl, rfl⟩ (h.stored.entry_of_get hget).len_le
  | borrowStart handle borrower => exact h.transition borrowStart_same
  | borrowEnd handle borrower => exact h.transition borrowEnd_same
  | readPayload handle caller offset length flowId =>
    simp only [ResourceManager.step]
    rcases read_cases handle caller offset length flowId m with ⟨e, heq⟩ | ⟨entry, -, -, heq⟩
    all_goals rw [heq]; exact h
  | writePayload handle caller offset data flowId =>
    simp only [ResourceManager.step]
    rcases write_cases handle caller offset data flowId m with
      ⟨e, heq⟩ | ⟨entry, hget, -, -, hle, heq⟩
    · rw [heq]
      exact h
    · rw [heq]
      have hwrite := (h.store hget hle).replace (.of_put hget (writtenEntry entry _) rfl)
        ⟨rfl, rfl, rfl, rfl⟩ (max_le (h.stored.entry_of_get hget).len_le hle)
      refine hwrite.congr_contents fun p _ => funext fun i => ?_
      show (if handle = ⟨p.1⟩ ∧ offset ≤ i then
        (data[i - offset]?).getD (written trace ⟨p.1⟩ i) else written trace ⟨p.1⟩ i) = _
      by_cases hid : handle = ⟨p.1⟩
      · subst hid
        simp only [true_and, Isolated.overwrite, Function.update_self]
      · rw [if_neg (fun hand => hid hand.1), Isolated.overwrite,
          Function.update_of_ne (Ne.symm hid)]
  | forceReclaim component hash => exact h.forceReclaim component hash
  | reclaimFlowBuffers flowId hash => exact h.reclaimFlow flowId hash
  | releaseFlowResources flowId hash => exact h.reclaimFlow flowId hash

end IsolatedManager

/-- The payload of an entry. -/
def payloadOf (m : ResourceManager) (entry : ResourceEntry) : List UInt8 :=
  Torvyn.readPayload entry.bufferPtr 0 entry.payloadLen m.heap

/-- In an isolated manager the payload of a live entry is what its handle was given. -/
theorem payloadOf_eq {slots : PoolTier → List Block} {contents : Contents} {m : ResourceManager}
    (h : IsolatedManager slots contents m) {p : ResourceId × ResourceEntry}
    (hp : p ∈ m.table.iter) :
    payloadOf m p.2 = (List.range p.2.payloadLen).map (contents ⟨p.1⟩) := by
  have hlen := (h.stored.entries p hp).len_le
  refine List.map_congr_left fun i hi => ?_
  have hi := List.mem_range.1 hi
  rw [Nat.add_zero]
  exact h.content p hp i (by omega)

end ResourceManager

namespace StartedManager

open ResourceManager

/-- After a sequence of calls that fit, every payload holds what its handle was given. -/
theorem isolated_after (s : StartedManager) {ops : List Op}
    (hops : Allowed (FitsPool s.config) s.manager ops) :
    IsolatedManager s.slots (written (s.trace ops)) (s.after ops) := by
  refine run_invariant (P := fun trace m => IsolatedManager s.slots (written trace) m)
    (fun trace m op hfits h => h.step (fun t b hb => s.size_of_mem_slots hb) op hfits) hops ?_
  have hnone : s.manager.table.iter = [] := s.iter_manager
  refine ⟨s.stored_after [], by simp [hnone], by simp [hnone], by simp [hnone],
    fun t b hb _ i hi => ?_⟩
  exact ((Custody.new s.manager_eq.2.2.2.2.2.1).2.1 t b hb).2 _ (Isolated.covers_payload hi)

/-- **No data leaks between allocations**: a successful read returns, byte by byte, what was
last written through the handle since its allocation. -/
theorem read_last_written (s : StartedManager) {ops : List Op}
    (hops : Allowed (FitsPool s.config) s.manager ops) {handle : BufferHandle} {caller : OwnerId}
    {offset length : ℕ} {flowId : FlowId} {bytes : List UInt8}
    (hread : ((s.after ops).readPayload handle caller offset length flowId).1 = .ok bytes) :
    bytes = (List.range length).map fun i => lastWritten handle (offset + i) (s.trace ops) := by
  have h := s.isolated_after hops
  rcases read_cases handle caller offset length flowId (s.after ops) with
    ⟨e, heq⟩ | ⟨entry, hget, hle, heq⟩
  · rw [heq] at hread
    cases hread
  · rw [heq] at hread
    obtain rfl := Except.ok.inj hread
    have hlen := (h.stored.entry_of_get hget).len_le
    refine List.map_congr_left fun i hi => ?_
    have hi := List.mem_range.1 hi
    have hbyte := h.content _ (ResourceTable.get_eq_ok.1 hget) (offset + i)
      (show offset + i < entry.payloadCapacity by omega)
    rw [Nat.add_assoc]
    exact hbyte

/-! ## A buffer that is reused -/

/-- One preallocated buffer of 256 bytes. -/
def smallPool : ResourceManagerConfig where
  tableCapacity := 1
  poolConfigs
    | .small => ⟨.small, 1, true⟩
    | tier => ⟨tier, 0, false⟩
  defaultBudgetBytes := 0

def startedSmallPool : StartedManager where
  alloc := .bump
  config := smallPool
  manager := (ResourceManager.new .bump smallPool).getD
    ⟨.new 0, fun _ => ∅, fun _ => ∅, fun _ => ⟨[], 0⟩, .empty, .new 0, .new⟩
  started := by rfl

/-- A buffer is written, released, handed out again and written at another offset. -/
def reuse : List Op :=
  [.allocate .bump .host 10 ⟨0⟩, .writePayload ⟨⟨0, 1⟩⟩ .host 0 [7, 7, 7] ⟨0⟩,
    .release ⟨⟨0, 1⟩⟩ .host, .allocate .bump .host 20 ⟨0⟩,
    .writePayload ⟨⟨0, 2⟩⟩ .host 2 [9] ⟨0⟩]

theorem read_last_written_reuse :
    Allowed (FitsPool startedSmallPool.config) startedSmallPool.manager reuse ∧
    ((startedSmallPool.after reuse).readPayload ⟨⟨0, 2⟩⟩ .host 0 3 ⟨0⟩).1 = .ok [0, 0, 9] ∧
    [0, 0, 9] = (List.range 3).map fun i =>
      lastWritten ⟨⟨0, 2⟩⟩ (0 + i) (startedSmallPool.trace reuse) := by
  have hops : Allowed (FitsPool startedSmallPool.config) startedSmallPool.manager reuse :=
    ⟨.inr (by decide), trivial, trivial, .inr (by decide), trivial, trivial⟩
  have hread : ((startedSmallPool.after reuse).readPayload ⟨⟨0, 2⟩⟩ .host 0 3 ⟨0⟩).1 =
      .ok [0, 0, 9] := by rfl
  exact ⟨hops, hread, startedSmallPool.read_last_written hops hread⟩

end StartedManager

end Torvyn
