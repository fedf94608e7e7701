/-
# The resource table

The generational slab of `table.rs`: slots are occupied by live resources or linked into a
free list, and the generation of a slot grows each time it is filled, so that old handles to
it go stale.
-/
import Torvyn.Data.FreeList
import Torvyn.Resources.Handle

namespace Torvyn

/-- `FREE_LIST_END`: the sentinel of the free list. -/
def freeListEnd : ℕ := 2 ^ 32 - 1

/-- A slot of the table. -/
inductive Slot where
  | occupied (entry : ResourceEntry)
  | vacant (nextFree generation : ℕ)
  deriving DecidableEq, Repr

/-- The resource table. -/
structure ResourceTable where
  entries : List Slot
  freeHead : ℕ
  len : ℕ
  capacity : ℕ
  deriving DecidableEq, Repr

namespace ResourceTable

/-- The slots `start, …, stop - 1`, all vacant and linked in order. -/
def vacantSlots (start stop : ℕ) : List Slot :=
  (List.range' start (stop - start)).map fun i =>
    .vacant (if i + 1 < stop then i + 1 else freeListEnd) 0

/-- An empty table. -/
def new (initialCapacity : ℕ) : ResourceTable where
  entries := vacantSlots 0 initialCapacity
  freeHead := 0
  len := 0
  capacity := initialCapacity

/-- Double the capacity. -/
def grow (table : ResourceTable) : Except ResourceError ResourceTable :=
  let newCap := table.capacity * 2
  if newCap > 2 ^ 32 - 1 then
    .error (.allocationFailed 0 "resource table capacity overflow (> u32::MAX)")
  else
    .ok { table with
      entries := table.entries ++ vacantSlots table.capacity newCap
      freeHead := table.capacity
      capacity := newCap }

/-- Fill the first slot of the free list. The last branch stands for the internal error and
for an index out of bounds; neither is reached, see `insert_error`. -/
def insertAtHead (entry : ResourceEntry) (table : ResourceTable) :
    Except ResourceError (ResourceId × ResourceTable) :=
  let index := table.freeHead
  match table.entries[index]? with
  | some (.vacant nextFree generation) =>
    let newGeneration := (generation + 1) % 2 ^ 32
    .ok (⟨index, newGeneration⟩,
      { table with
        entries := table.entries.set index (.occupied { entry with generation := newGeneration })
        freeHead := nextFree
        len := table.len + 1 })
  | _ => .error (.allocationFailed 0 "internal error: free_head pointed to an occupied slot")

/-- Insert an entry, growing the table when the free list is empty. -/
def insert (entry : ResourceEntry) (table : ResourceTable) :
    Except ResourceError (ResourceId × ResourceTable) :=
  if table.freeHead = freeListEnd then
    match table.grow with
    | .error e => .error e
    | .ok table => table.insertAtHead entry
  else table.insertAtHead entry

/-- Look up a resource; `get_mut` makes the same checks. -/
def get (handle : BufferHandle) (table : ResourceTable) : Except ResourceError ResourceEntry :=
  let id := handle.resourceId
  match table.entries[id.index]? with
  | none => .error (.staleHandle id)
  | some (.occupied entry) =>
    if entry.generation = id.generation then .ok entry else .error (.staleHandle id)
  | some (.vacant _ _) => .error (.notAllocated id)

/-- Overwrite the entry of a handle, as through the reference that `get_mut` returns. -/
def put (handle : BufferHandle) (entry : ResourceEntry) (table : ResourceTable) : ResourceTable :=
  { table with entries := table.entries.set handle.resourceId.index (.occupied entry) }

/-- Vacate the slot of a handle. The slot keeps the generation. -/
def remove (handle : BufferHandle) (table : ResourceTable) :
    Except ResourceError (ResourceEntry × ResourceTable) :=
  match table.get handle with
  | .error e => .error e
  | .ok entry =>
    .ok (entry,
      { table with
        entries := table.entries.set handle.resourceId.index
          (.vacant table.freeHead entry.generation)
        freeHead := handle.resourceId.index
        len := table.len - 1 })

end ResourceTable

/-- The resource that a slot holds. -/
def Slot.resource (i : ℕ) : Slot → Option (ResourceId × ResourceEntry)
  | occupied entry => some (⟨i, entry.generation⟩, entry)
  | vacant _ _ => none

/-- The resources that a list of slots holds. -/
def Slot.resources (entries : List Slot) : List (ResourceId × ResourceEntry) :=
  entries.zipIdx.filterMap fun p => p.1.resource p.2

/-- `iter`: the live resources. -/
def ResourceTable.iter (table : ResourceTable) : List (ResourceId × ResourceEntry) :=
  Slot.resources table.entries

/-! ## The resources of a list of slots -/

namespace Slot

theorem mem_resources {entries : List Slot} {id : ResourceId} {entry : ResourceEntry} :
    (id, entry) ∈ resources entries ↔
      entries[id.index]? = some (occupied entry) ∧ entry.generation = id.generation := by
  simp only [resources, List.mem_filterMap, Prod.exists, List.mem_zipIdx_iff_getElem?]
  constructor
  · rintro ⟨slot, i, hslot, hres⟩
    cases slot with
    | vacant _ _ => cases hres
    | occupied e =>
      simp only [resource, Option.some.injEq, Prod.mk.injEq] at hres
      obtain ⟨rfl, rfl⟩ := hres
      exact ⟨hslot, rfl⟩
  · rintro ⟨hslot, hgen⟩
    refine ⟨_, _, hslot, ?_⟩
    simp only [resource, hgen]

/-- No id occurs twice. -/
theorem nodup_resources (entries : List Slot) : ((resources entries).map Prod.fst).Nodup := by
  rw [resources, List.map_filterMap]
  refine List.Pairwise.filterMap (R := fun p q => p.2 ≠ q.2) _ ?_ ?_
  · rintro ⟨slot, i⟩ ⟨slot', j⟩ hne id hid id' hid' rfl
    cases slot <;> cases slot' <;> simp [resource] at hid hid'
    subst hid
    exact hne (ResourceId.mk.inj hid').1.symm
  · have h := List.nodup_range' (s := 0) (n := entries.length)
    rw [← List.zipIdx_map_snd] at h
    exact List.pairwise_map.1 h

/-- Changing one slot changes the resource of that slot. -/
theorem resources_set (entries : List Slot) {i : ℕ} (hi : i < entries.length) :
    ∃ rest, ∀ slot, (resources (entries.set i slot)).Perm ((slot.resource i).toList ++ rest) := by
  refine ⟨resources (entries.take i) ++
    ((entries.drop (i + 1)).zipIdx (i + 1)).filterMap fun p => p.1.resource p.2, fun slot => ?_⟩
  rw [List.set_eq_take_append_cons_drop, if_pos hi, resources, List.zipIdx_append,
    List.filterMap_append, List.length_take, min_eq_left hi.le, List.zipIdx_cons,
    List.filterMap_cons]
  simp only [zero_add]
  cases slot with
  | vacant _ _ => exact .refl _
  | occupied e => exact List.perm_middle

theorem resources_append_vacant (entries : List Slot) (start stop : ℕ) :
    resources (entries ++ ResourceTable.vacantSlots start stop) = resources entries := by
  rw [resources, List.zipIdx_append, List.filterMap_append]
  have hnone : (ResourceTable.vacantSlots start stop |>.zipIdx (0 + entries.length)).filterMap
      (fun p => p.1.resource p.2) = [] := by
    rw [List.filterMap_eq_nil_iff]
    rintro ⟨slot, i⟩ hmem
    have hslot := List.fst_mem_of_mem_zipIdx hmem
    obtain ⟨j, -, rfl⟩ := List.mem_map.1 hslot
    rfl
  rw [hnone, List.append_nil]
  rfl

end Slot

namespace ResourceTable

variable {table table' : ResourceTable} {handle : BufferHandle} {entry entry' : ResourceEntry}
  {id : ResourceId}

/-! ## What the operations do to the live resources -/

theorem nodup_iter (table : ResourceTable) : (table.iter.map Prod.fst).Nodup :=
  Slot.nodup_resources _

/-- Looking up a handle finds exactly the live resource with its id. -/
theorem get_eq_ok : table.get handle = .ok entry ↔ (handle.resourceId, entry) ∈ table.iter := by
  rw [iter, Slot.mem_resources, get]
  split
  · simp [*]
  · rename_i e he
    rw [he]
    split_ifs with hgen
    · simp only [Except.ok.injEq, Option.some.injEq, Slot.occupied.injEq]
      exact ⟨by rintro rfl; exact ⟨rfl, hgen⟩, fun h => h.1⟩
    · simp only [Option.some.injEq, Slot.occupied.injEq, false_iff, not_and]
      rintro rfl
      exact hgen
  · simp [*]

/-- The slot of a live handle. -/
theorem slot_of_get (h : table.get handle = .ok entry) :
    table.entries[handle.resourceId.index]? = some (.occupied entry) ∧
    entry.generation = handle.resourceId.generation :=
  Slot.mem_resources.1 (get_eq_ok.1 h)

/-- Overwriting the slot of a live handle replaces its resource. -/
theorem iter_set (h : table.get handle = .ok entry) :
    ∃ rest, table.iter.Perm ((handle.resourceId, entry) :: rest) ∧
      ∀ slot, (Slot.resources (table.entries.set handle.resourceId.index slot)).Perm
        ((slot.resource handle.resourceId.index).toList ++ rest) := by
  obtain ⟨hslot, hgen⟩ := slot_of_get h
  obtain ⟨hlt, hget⟩ := List.getElem?_eq_some_iff.1 hslot
  obtain ⟨rest, hrest⟩ := Slot.resources_set table.entries hlt
  refine ⟨rest, ?_, hrest⟩
  have hself := hrest (.occupied entry)
  rw [← hget, List.set_getElem_self, hget] at hself
  simp only [Slot.resource, hgen, Option.toList_some, List.singleton_append] at hself
  exact hself

/-- `put` replaces the entry of the handle and keeps all others. -/
theorem put_spec (h : table.get handle = .ok entry) (entry' : ResourceEntry)
    (hgen : entry'.generation = entry.generation) :
    ∃ rest, table.iter.Perm ((handle.resourceId, entry) :: rest) ∧
      (table.put handle entry').iter.Perm ((handle.resourceId, entry') :: rest) := by
  obtain ⟨rest, hperm, hset⟩ := iter_set h
  have hput := hset (.occupied entry')
  simp only [Slot.resource, hgen, (slot_of_get h).2, Option.toList_some,
    List.singleton_append] at hput
  exact ⟨rest, hperm, hput⟩

/-- `remove` takes out the entry of the handle. -/
theorem remove_spec (h : table.get handle = .ok entry) :
    ∃ table', table.remove handle = .ok (entry, table') ∧
      table.iter.Perm ((handle.resourceId, entry) :: table'.iter) := by
  obtain ⟨rest, hperm, hset⟩ := iter_set h
  refine ⟨_, by rw [remove, h], hperm.trans (List.Perm.cons _ ?_)⟩
  exact (hset (.vacant table.freeHead entry.generation)).symm

/-- Growing adds no resource. -/
theorem grow_spec (h : table.grow = .ok table') :
    table'.iter = table.iter ∧ table'.len = table.len := by
  unfold grow at h
  dsimp only at h
  split_ifs at h
  obtain rfl := Except.ok.inj h
  exact ⟨Slot.resources_append_vacant _ _ _, rfl⟩

theorem insertAtHead_spec (h : table.insertAtHead entry = .ok (id, table')) :
    table'.iter.Perm ((id, { entry with generation := id.generation }) :: table.iter) ∧
    table'.len = table.len + 1 := by
  unfold insertAtHead at h
  dsimp only at h
  split at h
  · rename_i nextFree generation hslot
    simp only [Except.ok.injEq, Prod.mk.injEq] at h
    obtain ⟨rfl, rfl⟩ := h
    obtain ⟨hlt, hget⟩ := List.getElem?_eq_some_iff.1 hslot
    obtain ⟨rest, hrest⟩ := Slot.resources_set table.entries hlt
    have hself := hrest (.vacant nextFree generation)
    rw [← hget, List.set_getElem_self, hget] at hself
    exact ⟨(hrest _).trans (List.Perm.cons _ hself.symm), rfl⟩
  · cases h

/-- `insert` adds the entry under a new id. -/
theorem insert_spec (h : table.insert entry = .ok (id, table')) :
    table'.iter.Perm ((id, { entry with generation := id.generation }) :: table.iter) ∧
    table'.len = table.len + 1 := by
  unfold insert at h
  split_ifs at h
  · split at h
    · cases h
    · rename_i grown hgrow
      obtain ⟨hiter, hlen⟩ := grow_spec hgrow
      rw [← hiter, ← hlen]
      exact insertAtHead_spec h
  · exact insertAtHead_spec h

/-- The new id was not in use. -/
theorem insert_fresh (h : table.insert entry = .ok (id, table')) :
    id ∉ table.iter.map Prod.fst := by
  have hnodup := ((insert_spec h).1.map Prod.fst).nodup_iff.1 table'.nodup_iter
  exact (List.nodup_cons.1 hnodup).1

/-! ## Well-formed tables -/

/-- The link of a slot, if it is vacant. -/
def next (table : ResourceTable) (i : ℕ) : Option ℕ :=
  match table.entries[i]? with
  | some (.vacant nextFree _) => some nextFree
  | _ => none

/-- The invariants that the source documents for the table: the vector has `capacity` slots,
`len` of them are occupied and the free list runs through vacant slots. -/
structure WellFormed (table : ResourceTable) : Prop where
  length : table.entries.length = table.capacity
  capacity_pos : 0 < table.capacity
  capacity_le : table.capacity ≤ freeListEnd
  len : table.len = table.iter.length
  free : ∃ l, FreeList table.next freeListEnd table.freeHead l

@[simp] theorem length_vacantSlots (start stop : ℕ) :
    (vacantSlots start stop).length = stop - start := by
  simp [vacantSlots]

theorem getElem?_vacantSlots {start stop i : ℕ} (h : start ≤ i) (h' : i < stop) :
    (vacantSlots start stop)[i - start]? =
      some (.vacant (if i + 1 < stop then i + 1 else freeListEnd) 0) := by
  have hi : start + 1 * (i - start) = i := by omega
  simp only [vacantSlots, List.getElem?_map, List.getElem?_range' (by omega : i - start < stop - start),
    hi, Option.map_some]

/-- Slots that are added at the end form a free list of their own. -/
theorem freeList_vacantSlots {old : List Slot} {stop : ℕ}
    (hentries : table.entries = old ++ vacantSlots old.length stop) (hle : stop ≤ freeListEnd) :
    FreeList table.next freeListEnd (if old.length < stop then old.length else freeListEnd)
      (List.range' old.length (stop - old.length)) := by
  refine FreeList.range' table.next old.length hle fun i hi hi' => ?_
  rw [ResourceTable.next, hentries, List.getElem?_append_right hi, getElem?_vacantSlots hi hi']

/-- A new table is well formed, and its first slot is free. -/
theorem WellFormed.new {capacity : ℕ} (hpos : 0 < capacity) (hle : capacity ≤ freeListEnd) :
    (ResourceTable.new capacity).WellFormed where
  length := by simp [ResourceTable.new]
  capacity_pos := hpos
  capacity_le := hle
  len := by
    have h := Slot.resources_append_vacant [] 0 capacity
    rw [List.nil_append] at h
    show 0 = (Slot.resources (vacantSlots 0 capacity)).length
    rw [h]
    rfl
  free := by
    have h := @freeList_vacantSlots (.new capacity) [] _ rfl hle
    rw [List.length_nil, if_pos hpos] at h
    exact ⟨_, h⟩

/-- The head of a free list that is not empty is a vacant slot. -/
theorem WellFormed.vacant_head (h : table.WellFormed) (hne : table.freeHead ≠ freeListEnd) :
    ∃ nextFree generation, table.entries[table.freeHead]? = some (.vacant nextFree generation) ∧
      ∃ l, table.freeHead ∉ l ∧ FreeList table.next freeListEnd nextFree l := by
  obtain ⟨l, hl⟩ := h.free
  obtain ⟨j, rest, hj, rfl, hnot, hrest⟩ := hl.pop hne
  unfold ResourceTable.next at hj
  split at hj
  · rename_i nextFree generation hslot
    obtain rfl := Option.some.inj hj
    exact ⟨_, _, hslot, rest, hnot, hrest⟩
  · cases hj

/-- Growing keeps the table well formed and leaves a free slot. -/
theorem WellFormed.grow (h : table.WellFormed) (hgrow : table.grow = .ok table') :
    table'.WellFormed ∧ table'.freeHead ≠ freeListEnd := by
  obtain ⟨hiter, hlen⟩ := grow_spec hgrow
  have hpos := h.capacity_pos
  unfold ResourceTable.grow at hgrow
  dsimp only at hgrow
  split_ifs at hgrow with hcap
  obtain rfl := Except.ok.inj hgrow
  have hle : table.capacity * 2 ≤ freeListEnd := by
    unfold freeListEnd
    omega
  refine ⟨⟨?_, by show 0 < table.capacity * 2; omega, hle, ?_, ?_⟩, ?_⟩
  · simp only [List.length_append, h.length, length_vacantSlots]
    omega
  · exact hlen.trans (h.len.trans (by rw [hiter]))
  · have hlt : table.entries.length < table.capacity * 2 := by
      rw [h.length]
      omega
    have hrange := @freeList_vacantSlots { table with
      entries := table.entries ++ vacantSlots table.capacity (table.capacity * 2)
      freeHead := table.capacity
      capacity := table.capacity * 2 } table.entries _ (by rw [h.length]) hle
    rw [if_pos hlt, h.length] at hrange
    exact ⟨_, hrange⟩
  · show table.capacity ≠ freeListEnd
    omega

theorem WellFormed.insertAtHead (h : table.WellFormed) (hne : table.freeHead ≠ freeListEnd)
    (entry : ResourceEntry) :
    ∃ id table', table.insertAtHead entry = .ok (id, table') ∧ table'.WellFormed := by
  obtain ⟨nextFree, generation, hslot, l, hnot, hl⟩ := h.vacant_head hne
  have hok : ∃ id table', table.insertAtHead entry = .ok (id, table') ∧
      table'.entries = table.entries.set table.freeHead
        (.occupied { entry with generation := (generation + 1) % 2 ^ 32 }) ∧
      table'.freeHead = nextFree ∧ table'.capacity = table.capacity := by
    refine ⟨⟨table.freeHead, (generation + 1) % 2 ^ 32⟩,
      { table with
        entries := table.entries.set table.freeHead
          (.occupied { entry with generation := (generation + 1) % 2 ^ 32 })
        freeHead := nextFree
        len := table.len + 1 }, ?_, rfl, rfl, rfl⟩
    simp only [ResourceTable.insertAtHead, hslot]
  obtain ⟨id, table', hinsert, hentries, hhead, hcap⟩ := hok
  obtain ⟨hperm, hlen⟩ := insertAtHead_spec hinsert
  refine ⟨id, table', hinsert, ?_, hcap ▸ h.capacity_pos, hcap ▸ h.capacity_le, ?_, l, ?_⟩
  · rw [hentries, List.length_set, h.length, hcap]
  · rw [hlen, h.len, hperm.length_eq, List.length_cons]
  · rw [hhead]
    refine hl.congr fun i hi => ?_
    have hi : table.freeHead ≠ i := fun heq => hnot (heq ▸ hi)
    simp only [ResourceTable.next, hentries, List.getElem?_set_ne hi]

/-- Inserting keeps the table well formed. -/
theorem WellFormed.insert (h : table.WellFormed) (hinsert : table.insert entry = .ok (id, table')) :
    table'.WellFormed := by
  unfold ResourceTable.insert at hinsert
  split_ifs at hinsert with hempty
  · split at hinsert
    · cases hinsert
    · rename_i grown hgrow
      obtain ⟨hgrown, hne⟩ := h.grow hgrow
      obtain ⟨_, _, hok, hwf⟩ := hgrown.insertAtHead hne entry
      cases hinsert.symm.trans hok
      exact hwf
  · obtain ⟨_, _, hok, hwf⟩ := h.insertAtHead hempty entry
    cases hinsert.symm.trans hok
    exact hwf

/-- **The only way to fail is to outgrow the index range**: the free list never leads to an
occupied slot. -/
theorem WellFormed.insert_error {e : ResourceError} (h : table.WellFormed)
    (hinsert : table.insert entry = .error e) :
    table.freeHead = freeListEnd ∧
      e = .allocationFailed 0 "resource table capacity overflow (> u32::MAX)" := by
  unfold ResourceTable.insert at hinsert
  split_ifs at hinsert with hempty
  · refine ⟨hempty, ?_⟩
    split at hinsert
    · rename_i e' hgrow
      obtain rfl := Except.error.inj hinsert
      unfold ResourceTable.grow at hgrow
      dsimp only at hgrow
      split_ifs at hgrow
      exact (Except.error.inj hgrow).symm
    · rename_i grown hgrow
      obtain ⟨hgrown, hne⟩ := h.grow hgrow
      obtain ⟨_, _, hok, -⟩ := hgrown.insertAtHead hne entry
      cases hinsert.symm.trans hok
  · obtain ⟨_, _, hok, -⟩ := h.insertAtHead hempty entry
    cases hinsert.symm.trans hok

/-- Overwriting a live entry keeps the table well formed. -/
theorem WellFormed.put (h : table.WellFormed) (hget : table.get handle = .ok entry)
    (hgen : entry'.generation = entry.generation) : (table.put handle entry').WellFormed := by
  obtain ⟨hslot, -⟩ := slot_of_get hget
  obtain ⟨rest, hperm, hput⟩ := put_spec hget entry' hgen
  obtain ⟨l, hl⟩ := h.free
  refine ⟨?_, h.capacity_pos, h.capacity_le, ?_, l, hl.congr fun i hi => ?_⟩
  · rw [ResourceTable.put, List.length_set, h.length]
  · have hlen := hput.length_eq.trans hperm.length_eq.symm
    exact h.len.trans hlen.symm
  · have hlinked := hl.chain.linked i hi
    have hne : handle.resourceId.index ≠ i := by
      rintro rfl
      simp [ResourceTable.next, hslot] at hlinked
    simp only [ResourceTable.next, ResourceTable.put, List.getElem?_set_ne hne]

/-- Removing keeps the table well formed. -/
theorem WellFormed.remove (h : table.WellFormed) (hget : table.get handle = .ok entry)
    (hremove : table.remove handle = .ok (entry, table')) : table'.WellFormed := by
  obtain ⟨hslot, -⟩ := slot_of_get hget
  obtain ⟨hlt, -⟩ := List.getElem?_eq_some_iff.1 hslot
  obtain ⟨l, hl⟩ := h.free
  obtain ⟨table₁, hremove₁, hperm⟩ := remove_spec hget
  cases hremove.symm.trans hremove₁
  rw [ResourceTable.remove, hget] at hremove
  simp only [Except.ok.injEq, Prod.mk.injEq, true_and] at hremove
  have hlen := hperm.length_eq
  rw [List.length_cons] at hlen
  subst hremove
  refine ⟨?_, h.capacity_pos, h.capacity_le, ?_, handle.resourceId.index :: l, ?_⟩
  · rw [List.length_set, h.length]
  · have := h.len
    show table.len - 1 = _
    omega
  · have hnext : table.next handle.resourceId.index = none := by
      simp [ResourceTable.next, hslot]
    refine hl.push (fun hi => ?_) ?_ ?_ fun j hj => ?_
    · simpa [hnext] using hl.chain.linked _ hi
    · have hlength := h.length
      have hcap := h.capacity_le
      show handle.resourceId.index ≠ freeListEnd
      omega
    · simp [ResourceTable.next, List.getElem?_set_self hlt]
    · simp only [ResourceTable.next, List.getElem?_set_ne (Ne.symm hj)]

/-! ## Changes of a table -/

/-- `table'` is `table` with a new resource. -/
structure Inserted (table table' : ResourceTable) (id : ResourceId) (entry : ResourceEntry) :
    Prop where
  live : table'.iter.Perm ((id, entry) :: table.iter)
  wellFormed : table.WellFormed → table'.WellFormed
  fresh : id ∉ table.iter.map Prod.fst

/-- `table'` is `table` without the resource of a handle. -/
structure Removed (table table' : ResourceTable) (handle : BufferHandle) (entry : ResourceEntry) :
    Prop where
  live : table.iter.Perm ((handle.resourceId, entry) :: table'.iter)
  wellFormed : table.WellFormed → table'.WellFormed

/-- `table'` is `table` with another entry for the resource of a handle. -/
structure Replaced (table table' : ResourceTable) (handle : BufferHandle)
    (entry entry' : ResourceEntry) : Prop where
  live : ∃ rest, table.iter.Perm ((handle.resourceId, entry) :: rest) ∧
    table'.iter.Perm ((handle.resourceId, entry') :: rest)
  wellFormed : table.WellFormed → table'.WellFormed

theorem Inserted.of_insert (h : table.insert entry = .ok (id, table')) :
    Inserted table table' id { entry with generation := id.generation } :=
  ⟨(insert_spec h).1, fun hwf => hwf.insert h, insert_fresh h⟩

theorem Replaced.of_put (h : table.get handle = .ok entry) (entry' : ResourceEntry)
    (hgen : entry'.generation = entry.generation) :
    Replaced table (table.put handle entry') handle entry entry' :=
  ⟨put_spec h entry' hgen, fun hwf => hwf.put h hgen⟩

/-- The entry that was put is the one that is found. -/
theorem get_put (h : table.get handle = .ok entry)
    (hgen : entry'.generation = entry.generation) :
    (table.put handle entry').get handle = .ok entry' := by
  obtain ⟨rest, -, hput⟩ := put_spec h entry' hgen
  exact get_eq_ok.2 (hput.mem_iff.2 List.mem_cons_self)

/-- Changing an entry before it is removed does not change what is left. -/
theorem remove_put (h : table.get handle = .ok entry) (entry' : ResourceEntry)
    (hgen : entry'.generation = entry.generation) :
    ∃ table', (table.put handle entry').remove handle = .ok (entry', table') ∧
      Removed table table' handle entry := by
  have hget := get_put h hgen
  obtain ⟨table', hremove, hperm⟩ := remove_spec hget
  obtain ⟨rest, hrest, hput⟩ := put_spec h entry' hgen
  refine ⟨table', hremove, hrest.trans (List.Perm.cons _ ?_), fun hwf => ?_⟩
  · exact (List.perm_cons _).1 (hput.symm.trans hperm)
  · exact (hwf.put h hgen).remove hget hremove

/-- The new entry is live. -/
theorem Replaced.mem (h : Replaced table table' handle entry entry') :
    (handle.resourceId, entry') ∈ table'.iter := by
  obtain ⟨rest, -, hlive'⟩ := h.live
  exact hlive'.mem_iff.2 List.mem_cons_self

/-- The resources of other handles stay. -/
theorem Replaced.mem_of_ne (h : Replaced table table' handle entry entry')
    {p : ResourceId × ResourceEntry} (hp : p ∈ table.iter) (hne : p.1 ≠ handle.resourceId) :
    p ∈ table'.iter := by
  obtain ⟨rest, hlive, hlive'⟩ := h.live
  rcases List.mem_cons.1 (hlive.mem_iff.1 hp) with rfl | hrest
  · exact absurd rfl hne
  · exact hlive'.mem_iff.2 (List.mem_cons_of_mem _ hrest)

/-- What is live is the new entry, or the resource of another handle that was live before. -/
theorem Replaced.cases (h : Replaced table table' handle entry entry')
    {p : ResourceId × ResourceEntry} (hp : p ∈ table'.iter) :
    p = (handle.resourceId, entry') ∨ p ∈ table.iter ∧ p.1 ≠ handle.resourceId := by
  obtain ⟨rest, hlive, hlive'⟩ := h.live
  rcases List.mem_cons.1 (hlive'.mem_iff.1 hp) with rfl | hrest
  · exact .inl rfl
  · refine .inr ⟨hlive.mem_iff.2 (List.mem_cons_of_mem _ hrest), fun heq => ?_⟩
    have hnodup := (hlive.map Prod.fst).nodup_iff.1 table.nodup_iter
    have hid : p.1 ∈ rest.map Prod.fst := List.mem_map_of_mem hrest
    rw [heq] at hid
    exact (List.nodup_cons.1 hnodup).1 hid

/-- The resources of other handles stay. -/
theorem Removed.mem_of_ne (h : Removed table table' handle entry)
    {p : ResourceId × ResourceEntry} (hp : p ∈ table.iter) (hne : p.1 ≠ handle.resourceId) :
    p ∈ table'.iter := by
  rcases List.mem_cons.1 (h.live.mem_iff.1 hp) with rfl | hp
  · exact absurd rfl hne
  · exact hp

/-- The removed resource was live under its id only. -/
theorem Removed.not_mem (h : Removed table table' handle entry) :
    handle.resourceId ∉ table'.iter.map Prod.fst :=
  (List.nodup_cons.1 ((h.live.map Prod.fst).nodup_iff.1 table.nodup_iter)).1

end ResourceTable

end Torvyn
