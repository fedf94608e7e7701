/-
# Bounds and exclusivity of buffers

The capacity of an entry is decided from the request, the size of its buffer by the pool that
serves it. No two live entries ever share a buffer. Every buffer has room for the capacity of
its entry exactly when no preallocated pool serves requests larger than its buffers.
-/
import Torvyn.Resources.Custody
import Torvyn.Resources.Indices

namespace Torvyn

namespace ResourceManager

/-- The buffers of the live entries. -/
def used (table : ResourceTable) : List Buffer :=
  table.iter.map fun p => p.2.buffer

/-- What is known of a live entry by itself: its capacity is one that its tier is asked for,
a buffer of the system allocator is made for it, and its payload fits. -/
structure EntryInvariant (entry : ResourceEntry) : Prop where
  tier_le : entry.poolTier.capacity ≤ entry.payloadCapacity
  le_tier : entry.payloadCapacity ≤ entry.poolTier.largestRequest
  fallback : entry.isFallback = true → entry.allocSize = headerSize + entry.payloadCapacity
  len_le : entry.payloadLen ≤ entry.payloadCapacity

/-- Every live entry has custody of its buffer, and the pools have the slots `slots`. -/
structure Stored (slots : PoolTier → List Block) (table : ResourceTable) (pools : BufferPoolSet)
    (heap : Heap) : Prop where
  custody : Custody pools heap (used table)
  slots : ∀ t, (pools t).blocks = slots t
  entries : ∀ p ∈ table.iter, EntryInvariant p.2

namespace Stored

variable {slots : PoolTier → List Block} {table table' : ResourceTable}
  {pools pools' : BufferPoolSet} {heap heap' : Heap} {handle : BufferHandle}
  {entry entry' : ResourceEntry} {id : ResourceId}

theorem entry_of_get (h : Stored slots table pools heap) (hget : table.get handle = .ok entry) :
    EntryInvariant entry :=
  h.entries _ (ResourceTable.get_eq_ok.1 hget)

theorem mem_used (hget : table.get handle = .ok entry) : entry.buffer ∈ used table :=
  List.mem_map.2 ⟨_, ResourceTable.get_eq_ok.1 hget, rfl⟩

theorem used_perm_cons {live : List (ResourceId × ResourceEntry)}
    (h : table.iter.Perm ((id, entry) :: live)) :
    (used table).Perm (entry.buffer :: live.map fun p => p.2.buffer) :=
  h.map fun p : ResourceId × ResourceEntry => p.2.buffer

/-- A new entry has custody of its buffer. -/
theorem accept (h : Stored slots table pools heap) {alloc : Allocator} {owner : OwnerId} {n : ℕ}
    {flowId : FlowId} {buffer : Buffer} (hn : n ≤ maxBufferSize)
    (halloc : pools.allocate alloc n heap = some (buffer, pools', heap'))
    (hins : table.Inserted table' id (freshEntry owner n flowId buffer id.generation)) :
    Stored slots table' pools' heap' := by
  obtain ⟨hcustody, hblocks, htier, hserved⟩ := h.custody.allocate halloc
  refine ⟨hcustody.perm (used_perm_cons hins.live).symm, fun t => (hblocks t).trans (h.slots t),
    fun p hp => ?_⟩
  rcases List.mem_cons.1 (hins.live.mem_iff.1 hp) with rfl | hp
  · refine ⟨?_, ?_, ?_, Nat.zero_le _⟩
    · simp only [freshEntry, htier, actualCapacity]
      exact le_max_left _ _
    · simp only [freshEntry, htier, actualCapacity]
      exact max_le (PoolTier.capacity_le_largestRequest _)
        (PoolTier.le_largestRequest_forCapacity hn)
    · intro hfallback
      cases hserved with
      | pool hf _ => simp [freshEntry, hf] at hfallback
      | system _ hsize _ => rw [freshEntry, hsize, htier, actualCapacity]
  · exact h.entries p hp

/-- An allocation that is undone leaves custody as it was. -/
theorem rollBack (h : Stored slots table pools heap) {alloc : Allocator} {n : ℕ} {buffer : Buffer}
    (halloc : pools.allocate alloc n heap = some (buffer, pools', heap')) :
    Stored slots table (BufferPoolSet.release buffer pools' heap').1
      (BufferPoolSet.release buffer pools' heap').2 := by
  obtain ⟨hcustody, hblocks, -, -⟩ := h.custody.allocate halloc
  obtain ⟨hcustody', hblocks', -⟩ := hcustody.release
  exact ⟨hcustody', fun t => (hblocks' t).trans ((hblocks t).trans (h.slots t)), h.entries⟩

/-- Custody of the buffer of an entry that leaves goes back to the pools. -/
theorem retire (h : Stored slots table pools heap) (hrem : table.Removed table' handle entry) :
    Stored slots table' (ResourceManager.retire entry pools heap).1
      (ResourceManager.retire entry pools heap).2 := by
  have hcustody := (h.custody.perm (used_perm_cons hrem.live)).of_blocks_eq
    (zeroPayload entry.bufferPtr entry.payloadCapacity heap) rfl
  obtain ⟨hcustody', hblocks, -⟩ := hcustody.release
  exact ⟨hcustody', fun t => (hblocks t).trans (h.slots t),
    fun p hp => h.entries p (hrem.live.mem_iff.2 (List.mem_cons_of_mem _ hp))⟩

/-- An entry that changes keeps custody of its buffer. -/
theorem replace (h : Stored slots table pools heap)
    (hrep : table.Replaced table' handle entry entry') (hsame : SameResource entry entry')
    (hlen : entry'.payloadLen ≤ entry'.payloadCapacity) (hblocks : heap'.blocks = heap.blocks) :
    Stored slots table' pools heap' := by
  obtain ⟨rest, hlive, hlive'⟩ := hrep.live
  refine ⟨?_, h.slots, fun p hp => ?_⟩
  · refine ((h.custody.perm (used_perm_cons hlive)).of_blocks_eq heap' hblocks).perm ?_
    rw [← hsame.buffer]
    exact (used_perm_cons hlive').symm
  · rcases List.mem_cons.1 (hlive'.mem_iff.1 hp) with rfl | hp
    · have hentry := h.entries _ (hlive.mem_iff.2 List.mem_cons_self)
      obtain ⟨-, hsize, htier, hfallback⟩ := Buffer.mk.inj hsame.buffer
      refine ⟨?_, ?_, fun hf => ?_, hlen⟩
      · rw [htier, hsame.payloadCapacity]
        exact hentry.tier_le
      · rw [htier, hsame.payloadCapacity]
        exact hentry.le_tier
      · rw [hsize, hsame.payloadCapacity]
        exact hentry.fallback (hfallback ▸ hf)
    · exact h.entries p (hlive.mem_iff.2 (List.mem_cons_of_mem _ hp))

end Stored

/-! ## Every operation -/

/-- Custody in a manager. -/
def StoredManager (slots : PoolTier → List Block) (m : ResourceManager) : Prop :=
  Stored slots m.table m.pools m.heap

namespace StoredManager

variable {slots : PoolTier → List Block} {m : ResourceManager}

theorem forceReclaim_loop (h : StoredManager slots m) (ids : List ResourceId)
    (reclaimed : List ResourceReclaimed) :
    StoredManager slots (ids.foldl forceReclaimOne (m, reclaimed)).1 := by
  induction ids generalizing m reclaimed with
  | nil => exact h
  | cons id rest ih =>
    rw [List.foldl_cons]
    rcases forceReclaimOne_cases m reclaimed id with ⟨-, heq⟩ | ⟨entry, table, -, hrem, heq⟩
    · rw [heq]
      exact ih h _
    · rw [heq]
      refine ih ?_ _
      exact h.retire hrem

theorem reclaimFlow_loop (h : StoredManager slots m) (ids : List ResourceId)
    (stats : FlowResourceStats) :
    StoredManager slots (ids.foldl reclaimFlowOne (m, stats)).1 := by
  induction ids generalizing m stats with
  | nil => exact h
  | cons id rest ih =>
    rw [List.foldl_cons]
    rcases reclaimFlowOne_cases m stats id with ⟨-, heq⟩ | ⟨entry, table, -, hrem, heq⟩
    · rw [heq]
      exact ih h _
    · rw [heq]
      refine ih ?_ _
      exact h.retire hrem

theorem forceReclaim (h : StoredManager slots m) (c : ComponentId) (hash : HashOrder) :
    StoredManager slots (m.forceReclaim c hash).2 :=
  forceReclaim_loop
    (m := { m with componentResources := Function.update m.componentResources c ∅ }) h _ []

theorem reclaimFlow (h : StoredManager slots m) (f : FlowId) (hash : HashOrder) :
    StoredManager slots (m.reclaimFlowBuffers f hash).2 :=
  reclaimFlow_loop (m := { m with flowResources := Function.update m.flowResources f ∅ }) h _ {}

theorem transition (h : StoredManager slots m) {handle : BufferHandle}
    {change : BufferHandle → ResourceEntry → Except ResourceError ResourceEntry}
    (hchange : ∀ {entry entry'}, change handle entry = .ok entry' →
      SameResource entry entry' ∧ entry'.owner = entry.owner ∧
      entry'.payloadLen = entry.payloadLen) :
    StoredManager slots (ResourceManager.transition change handle m).2 := by
  rcases transition_cases change handle m with ⟨e, heq⟩ | ⟨entry, entry', hget, hok, heq⟩
  · rw [heq]
    exact h
  · obtain ⟨hsame, -, hlen⟩ := hchange hok
    have hentry := (h.entry_of_get hget).len_le
    rw [heq]
    refine h.replace (.of_put hget entry' hsame.generation) hsame ?_ rfl
    rw [hlen, hsame.payloadCapacity]
    exact hentry

/-- Every operation keeps custody. -/
theorem step (h : StoredManager slots m) (op : Op) : StoredManager slots (m.step op).2 := by
  cases op with
  | registerFlow flowId => exact h
  | registerComponent component maxOwnedBytes => exact h
  | allocate alloc owner n flowId =>
    have hcases := allocate_cases alloc owner n flowId m
    show StoredManager slots (m.allocate alloc owner n flowId).2
    generalize m.allocate alloc owner n flowId = result at hcases ⊢
    cases hcases with
    | refused e => exact h
    | exhausted budgets e => exact h
    | rolledBack budgets e buffer pools heap _ _ halloc => exact h.rollBack halloc
    | admitted budgets buffer pools heap id table hn _ halloc hins => exact h.accept hn halloc hins
  | release handle caller =>
    have hcases := release_cases handle caller m
    show StoredManager slots (m.release handle caller).2
    generalize m.release handle caller = result at hcases ⊢
    cases hcases with
    | refused e => exact h
    | dropped entry table hget hcheck hrem => exact h.retire hrem
  | transferOwnership handle sender recipient =>
    have hcases := transfer_cases handle sender recipient m
    show StoredManager slots (m.transferOwnership handle sender recipient).2
    generalize m.transferOwnership handle sender recipient = result at hcases ⊢
    cases hcases with
    | refused e => exact h
    | charged entry budgets e => exact h
    | moved entry budgets hget hbudgets hcheck =>
      exact h.replace (.of_put hget { entry with owner := recipient } rfl)
        ⟨rfl, rfl, rfl, rfl⟩ (h.entry_of_get hget).len_le rfl
  | borrowStart handle borrower => exact h.transition borrowStart_same
  | borrowEnd handle borrower => exact h.transition borrowEnd_same
  | readPayload handle caller offset length flowId =>
    show StoredManager slots (m.readPayload handle caller offset length flowId).2
    rcases read_cases handle caller offset length flowId m with ⟨e, heq⟩ | ⟨entry, -, -, heq⟩
    all_goals rw [heq]; exact h
  | writePayload handle caller offset data flowId =>
    show StoredManager slots (m.writePayload handle caller offset data flowId).2
    rcases write_cases handle caller offset data flowId m with
      ⟨e, heq⟩ | ⟨entry, hget, -, -, hle, heq⟩
    · rw [heq]
      exact h
    · rw [heq]
      exact h.replace (.of_put hget (writtenEntry entry _) rfl) ⟨rfl, rfl, rfl, rfl⟩
        (max_le (h.entry_of_get hget).len_le hle) rfl
  | forceReclaim component hash => exact h.forceReclaim component hash
  | reclaimFlowBuffers flowId hash => exact h.reclaimFlow flowId hash
  | releaseFlowResources flowId hash => exact h.reclaimFlow flowId hash

end StoredManager

/-! ## Room and exclusivity -/

/-- Every live buffer is allocated memory with room for the payload capacity, every write
that is accepted stays inside that memory, and no two live entries share a buffer. -/
structure BufferSafe (m : ResourceManager) : Prop where
  room : ∀ handle entry, m.table.get handle = .ok entry → ∃ block ∈ m.heap.blocks,
    block.start = entry.bufferPtr ∧ headerSize + entry.payloadCapacity ≤ block.size
  writes : ∀ handle caller offset data flowId,
    (m.writePayload handle caller offset data flowId).1 = .ok () →
    ∃ entry, m.table.get handle = .ok entry ∧ ∃ block ∈ m.heap.blocks,
      block.start = entry.bufferPtr ∧
      entry.bufferPtr + headerSize + offset + data.length ≤ block.start + block.size
  exclusive : ∀ handle handle' entry entry', m.table.get handle = .ok entry →
    m.table.get handle' = .ok entry' → handle ≠ handle' → entry.bufferPtr ≠ entry'.bufferPtr

namespace StoredManager

variable {slots : PoolTier → List Block} {m : ResourceManager}

/-- **No two live entries share a buffer**, whatever the configuration. -/
theorem exclusive (h : StoredManager slots m) {handle handle' : BufferHandle}
    {entry entry' : ResourceEntry} (hget : m.table.get handle = .ok entry)
    (hget' : m.table.get handle' = .ok entry') (hne : handle ≠ handle') :
    entry.bufferPtr ≠ entry'.bufferPtr := by
  intro hptr
  have hmem := h.custody.allocated _ (Stored.mem_used hget)
  have hmem' := h.custody.allocated _ (Stored.mem_used hget')
  have hblock : entry.buffer.block = entry'.buffer.block :=
    h.custody.wellFormed.eq_of_start_eq hmem hmem' hptr
  have hnodup := h.custody.exclusive
  rw [used, List.map_map] at hnodup
  have heq := List.inj_on_of_nodup_map hnodup (ResourceTable.get_eq_ok.1 hget)
    (ResourceTable.get_eq_ok.1 hget') hblock
  obtain ⟨hid, -⟩ := Prod.mk.inj heq
  exact hne (congrArg BufferHandle.mk hid)

/-- A buffer of the system allocator has room; a pooled one has room when its slot does. -/
theorem room_of_slots (h : StoredManager slots m)
    (hslots : ∀ t b, b ∈ slots t → headerSize + t.largestRequest ≤ b.size)
    {handle : BufferHandle} {entry : ResourceEntry} (hget : m.table.get handle = .ok entry) :
    headerSize + entry.payloadCapacity ≤ entry.allocSize := by
  have hentry := h.entry_of_get hget
  cases hf : entry.isFallback with
  | true => exact (hentry.fallback hf).ge
  | false =>
    have hmem := h.custody.fromPool _ (Stored.mem_used hget) hf
    rw [h.slots] at hmem
    have hsize : headerSize + entry.poolTier.largestRequest ≤ entry.allocSize :=
      hslots entry.poolTier _ hmem
    have hle := hentry.le_tier
    omega

/-- With room for every payload capacity the manager is safe. -/
theorem bufferSafe (h : StoredManager slots m)
    (hroom : ∀ handle entry, m.table.get handle = .ok entry →
      headerSize + entry.payloadCapacity ≤ entry.allocSize) : BufferSafe m where
  room handle entry hget :=
    ⟨_, h.custody.allocated _ (Stored.mem_used hget), rfl, hroom handle entry hget⟩
  writes handle caller offset data flowId hok := by
    rcases write_cases handle caller offset data flowId m with
      ⟨e, heq⟩ | ⟨entry, hget, -, -, hle, -⟩
    · rw [heq] at hok
      cases hok
    · refine ⟨entry, hget, _, h.custody.allocated _ (Stored.mem_used hget), rfl, ?_⟩
      have hsize := hroom handle entry hget
      show entry.bufferPtr + headerSize + offset + data.length ≤ entry.bufferPtr + entry.allocSize
      omega
  exclusive _ _ _ _ hget hget' hne := h.exclusive hget hget' hne

end StoredManager

end ResourceManager

/-! ## The configurations that are safe -/

/-- No preallocated pool serves requests larger than its buffers. -/
def ResourceManagerConfig.Serves (config : ResourceManagerConfig) : Prop :=
  ∀ t, (config.poolConfigs t).preallocate = true → 0 < (config.poolConfigs t).poolSize.toNat →
    t.largestRequest ≤ (config.poolConfigs t).tier.capacity

instance (config : ResourceManagerConfig) : Decidable config.Serves :=
  inferInstanceAs (Decidable (∀ _, _))

namespace StartedManager

/-- The slots of the pools, which never change. -/
def slots (s : StartedManager) (t : PoolTier) : List Block :=
  (s.manager.pools t).blocks

/-- The slots of a tier have the capacity that its configuration names. -/
theorem size_of_mem_slots (s : StartedManager) {t : PoolTier} {b : Block} (hb : b ∈ s.slots t) :
    b.size = headerSize + (s.config.poolConfigs t).tier.capacity :=
  ((Custody.new s.manager_eq.2.2.2.2.2.1).2.1 t b hb).1

theorem slots_ne_nil (s : StartedManager) (t : PoolTier) :
    s.slots t ≠ [] ↔ (s.config.poolConfigs t).preallocate = true ∧
      0 < (s.config.poolConfigs t).poolSize.toNat := by
  have hlen := ((Custody.new s.manager_eq.2.2.2.2.2.1).2.2 t).1
  rw [← List.length_pos_iff]
  show 0 < (s.manager.pools t).blocks.length ↔ _
  rw [hlen]
  split_ifs with hpre <;> simp [hpre]

/-- In every state of a run each live entry has custody of its buffer. -/
theorem stored_after (s : StartedManager) (ops : List ResourceManager.Op) :
    (s.after ops).StoredManager s.slots := by
  refine s.after_invariant ?_ (fun m op h => h.step op) ops
  refine ⟨?_, fun _ => rfl, ?_⟩
  · rw [ResourceManager.used, s.iter_manager]
    exact (Custody.new s.manager_eq.2.2.2.2.2.1).1
  · simp [s.iter_manager]

/-- A pool whose buffers are too small for its requests hands one of them out. -/
theorem allocate_too_small (s : StartedManager) {t : PoolTier} (hne : s.slots t ≠ [])
    (hsmall : (s.config.poolConfigs t).tier.capacity < t.largestRequest) :
    ∃ handle entry, (s.after [.allocate s.alloc .host t.largestRequest ⟨0⟩]).table.get handle =
      .ok entry ∧ entry.allocSize < headerSize + entry.payloadCapacity := by
  have hnew := Custody.new s.manager_eq.2.2.2.2.2.1
  obtain ⟨l, hl, -⟩ := hnew.1.free t
  obtain ⟨ptr, allocSize, pool, hpop⟩ := TierPool.exists_pop hl ((hnew.2.2 t).2 hne)
  have hslot := hnew.2.1 t _ (List.mem_of_getElem? (TierPool.pop_spec hpop).2.1)
  have halloc : s.manager.pools.allocate s.alloc t.largestRequest s.manager.heap =
      some (⟨ptr, allocSize, t, false⟩, Function.update s.manager.pools t pool, s.manager.heap) := by
    simp only [BufferPoolSet.allocate, PoolTier.forCapacity_largestRequest, hpop]
  have hhead : s.manager.table.freeHead ≠ freeListEnd := by
    rw [s.manager_eq.1]
    show 0 ≠ freeListEnd
    decide
  have hcases := ResourceManager.allocate_cases s.alloc .host t.largestRequest ⟨0⟩ s.manager
  show ∃ handle entry, (s.manager.allocate s.alloc .host t.largestRequest ⟨0⟩).2.table.get handle =
    .ok entry ∧ _
  generalize s.manager.allocate s.alloc .host t.largestRequest ⟨0⟩ = result at hcases ⊢
  cases hcases with
  | refused e hreason =>
    rcases hreason with hlarge | hbudget
    · exact absurd t.largestRequest_le_maxBufferSize (Nat.not_le.2 hlarge)
    · cases hbudget
  | exhausted budgets e _ _ hnone => cases halloc.symm.trans hnone
  | rolledBack budgets e buffer pools heap _ _ _ hinsert =>
    exact absurd (s.table_wellFormed.insert_error hinsert).1 hhead
  | admitted budgets buffer pools heap id table _ _ halloc' hins =>
    cases halloc.symm.trans halloc'
    refine ⟨⟨id⟩, _, ResourceTable.get_eq_ok.2 (hins.live.mem_iff.2 List.mem_cons_self), ?_⟩
    have hsize : allocSize = headerSize + (s.config.poolConfigs t).tier.capacity := hslot.1
    have hle : t.largestRequest ≤ ResourceManager.actualCapacity t.largestRequest := le_max_right _ _
    show allocSize < headerSize + ResourceManager.actualCapacity t.largestRequest
    omega

/-- **Bounds and exclusivity hold in every run exactly when no preallocated pool serves
requests larger than its buffers.** -/
theorem bufferSafe_iff (s : StartedManager) :
    (∀ ops, (s.after ops).BufferSafe) ↔ s.config.Serves := by
  constructor
  · intro h t hpre hpos
    by_contra hsmall
    have hne := (s.slots_ne_nil t).2 ⟨hpre, hpos⟩
    obtain ⟨handle, entry, hget, hlt⟩ := s.allocate_too_small hne (Nat.not_le.1 hsmall)
    obtain ⟨block, hblock, hstart, hroom⟩ := (h _).room handle entry hget
    have hstored := s.stored_after [.allocate s.alloc .host t.largestRequest ⟨0⟩]
    have hmem := hstored.custody.allocated _ (ResourceManager.Stored.mem_used hget)
    have heq := hstored.custody.wellFormed.eq_of_start_eq hblock hmem hstart
    rw [heq] at hroom
    exact absurd hroom (Nat.not_le.2 hlt)
  · intro h ops
    have hstored := s.stored_after ops
    refine hstored.bufferSafe fun handle entry hget => hstored.room_of_slots ?_ hget
    intro t b hb
    obtain ⟨hpre, hpos⟩ := (s.slots_ne_nil t).1 (List.ne_nil_of_mem hb)
    have hserves := h t hpre hpos
    rw [s.size_of_mem_slots hb]
    omega

/-- The default configuration is safe: its largest tier is not preallocated. -/
example : ResourceManagerConfig.default.Serves := by decide

/-! ## A preallocated pool of the largest tier -/

/-- One preallocated buffer of 1 MiB, and no other pool. -/
def hugePool : ResourceManagerConfig where
  tableCapacity := 1
  poolConfigs
    | .huge => ⟨.huge, 1, true⟩
    | tier => ⟨tier, 0, false⟩
  defaultBudgetBytes := 0

/-- A manager with that pool. -/
def hugePoolManager : ResourceManager :=
  (ResourceManager.new .bump hugePool).getD
    ⟨.new 0, fun _ => ∅, fun _ => ∅, fun _ => ⟨[], 0⟩, .empty, .new 0, .new⟩

def startedHugePool : StartedManager where
  alloc := .bump
  config := hugePool
  manager := hugePoolManager
  started := by rfl

/-- A request for 2 MiB is given the 1 MiB buffer, and a write to the second MiB is accepted
and ends outside all memory that is allocated. -/
theorem hugePool_overflows :
    let m := startedHugePool.after [.allocate .bump .host (2 * 1024 * 1024) ⟨0⟩]
    (m.writePayload ⟨⟨0, 1⟩⟩ .host (1024 * 1024) [255] ⟨0⟩).1 = .ok () ∧
    (∃ entry, m.table.get ⟨⟨0, 1⟩⟩ = .ok entry ∧
      entry.payloadCapacity = 2 * 1024 * 1024 ∧ entry.allocSize = headerSize + 1024 * 1024) ∧
    ¬m.BufferSafe := by
  intro m
  let entry : ResourceEntry :=
    { generation := 1, state := .owned, owner := .host, borrowCount := 0, bufferPtr := 0
      allocSize := headerSize + 1024 * 1024, payloadCapacity := 2 * 1024 * 1024, payloadLen := 0
      poolTier := .huge, isFallback := false, flowId := ⟨0⟩ }
  have hget : m.table.get ⟨⟨0, 1⟩⟩ = .ok entry := by rfl
  have hblocks : m.heap.blocks = [⟨0, headerSize + 1024 * 1024⟩] := by rfl
  refine ⟨by rfl, ⟨entry, hget, rfl, rfl⟩, fun hsafe => ?_⟩
  obtain ⟨block, hblock, -, hroom⟩ := hsafe.room _ _ hget
  rw [hblocks] at hblock
  obtain rfl := List.mem_singleton.1 hblock
  exact absurd hroom (by decide)

end StartedManager

end Torvyn
