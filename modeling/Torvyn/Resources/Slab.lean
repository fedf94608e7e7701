/-
# The generational slab

The operations of `table.rs` statement by statement: a result together with the table that is
left, also by an operation that fails, and `none` for a panic.  They agree with the operations of
`ResourceTable` on well-formed tables.  Over any sequence of calls the ids that `insert` hands out
are distinct as long as no slot is reused `2 ^ 32` times, and an id leads to its entry until the
entry is removed (`slab_correct`).
-/
import Torvyn.Resources.Table

namespace Torvyn

/-- The generation of a slot. -/
def Slot.generation : Slot → ℕ
  | occupied entry => entry.generation
  | vacant _ generation => generation

namespace ResourceTable

/-! ## The operations in place -/

/-- The body of the loops that add slots. -/
def pushVacant (stop : ℕ) (table : ResourceTable) (i : ℕ) : ResourceTable :=
  { table with
    entries := table.entries ++ [.vacant (if i + 1 < stop then i + 1 else freeListEnd) 0] }

/-- `grow`. -/
def growInPlace (table : ResourceTable) : Except ResourceError Unit × ResourceTable :=
  let oldCap := table.capacity
  if oldCap * 2 > 2 ^ 32 - 1 then
    (.error (.allocationFailed 0 "resource table capacity overflow (> u32::MAX)"), table)
  else
    let newCap := oldCap * 2
    let table := (List.range' oldCap (newCap - oldCap)).foldl (pushVacant newCap) table
    (.ok (), { table with freeHead := oldCap, capacity := newCap })

/-- The part of `insert` after the check of the free list.  An index out of bounds panics, and so
does a length that leaves the range of `u32`. -/
def fillHead (entry : ResourceEntry) (table : ResourceTable) :
    Option (Except ResourceError ResourceId × ResourceTable) :=
  let index := table.freeHead
  match table.entries[index]? with
  | none => none
  | some (.occupied _) =>
      some (.error (.allocationFailed 0
        "internal error: free_head pointed to an occupied slot"), table)
  | some (.vacant nextFree generation) =>
      let table := { table with freeHead := nextFree }
      let newGeneration := (generation + 1) % 2 ^ 32
      let table := { table with
        entries := table.entries.set index (.occupied { entry with generation := newGeneration }) }
      if table.len + 1 > 2 ^ 32 - 1 then none
      else some (.ok ⟨index, newGeneration⟩, { table with len := table.len + 1 })

/-- `insert`. -/
def insertInPlace (entry : ResourceEntry) (table : ResourceTable) :
    Option (Except ResourceError ResourceId × ResourceTable) :=
  if table.freeHead = freeListEnd then
    match table.growInPlace with
    | (.error e, table) => some (.error e, table)
    | (.ok (), table) => table.fillHead entry
  else table.fillHead entry

/-- `get_mut`: the entry, and the table after the caller has written through the reference. -/
def getMut (handle : BufferHandle) (table : ResourceTable) :
    Except ResourceError (ResourceEntry × (ResourceEntry → ResourceTable)) :=
  let id := handle.resourceId
  match table.entries[id.index]? with
  | none => .error (.staleHandle id)
  | some (.occupied entry) =>
      if entry.generation = id.generation then
        .ok (entry, fun written =>
          { table with entries := table.entries.set id.index (.occupied written) })
      else .error (.staleHandle id)
  | some (.vacant _ _) => .error (.notAllocated id)

/-- `remove`.  The length is lowered without a check, and the slot that is replaced is occupied. -/
def removeInPlace (handle : BufferHandle) (table : ResourceTable) :
    Option (Except ResourceError ResourceEntry × ResourceTable) :=
  let id := handle.resourceId
  match table.entries[id.index]? with
  | none => some (.error (.staleHandle id), table)
  | some (.vacant _ _) => some (.error (.notAllocated id), table)
  | some (.occupied entry) =>
      if entry.generation ≠ id.generation then some (.error (.staleHandle id), table)
      else
        let table := { table with
          entries := table.entries.set id.index (.vacant table.freeHead entry.generation) }
        let table := { table with freeHead := id.index }
        if table.len = 0 then none
        else some (.ok entry, { table with len := table.len - 1 })

end ResourceTable

/-! ## Sequences of calls -/

/-- A call that changes the table.  Growing is a part of `insert`. -/
inductive TableCall where
  | insert (entry : ResourceEntry)
  | remove (handle : BufferHandle)

/-- What a call returns. -/
inductive TableReturn where
  | inserted (result : Except ResourceError ResourceId)
  | removed (result : Except ResourceError ResourceEntry)

namespace ResourceTable

/-- One call. -/
def call (table : ResourceTable) : TableCall → Option (TableReturn × ResourceTable)
  | .insert entry => (table.insertInPlace entry).map (Prod.map .inserted id)
  | .remove handle => (table.removeInPlace handle).map (Prod.map .removed id)

/-- A sequence of calls with what they return, and the table after it. -/
def run (table : ResourceTable) :
    List TableCall → Option (List (TableCall × TableReturn) × ResourceTable)
  | [] => some ([], table)
  | c :: cs => do
      let (result, table) ← table.call c
      let (history, table) ← table.run cs
      some ((c, result) :: history, table)

end ResourceTable

/-- The calls that have been made, with what they returned. -/
abbrev TableHistory := List (TableCall × TableReturn)

namespace TableHistory

/-- The id of a call that inserted an entry, with the entry as it is stored. -/
def insertion : TableCall × TableReturn → Option (ResourceId × ResourceEntry)
  | (.insert entry, .inserted (.ok id)) => some (id, { entry with generation := id.generation })
  | _ => none

/-- The id that a call removed. -/
def removal : TableCall × TableReturn → Option ResourceId
  | (.remove handle, .removed (.ok _)) => some handle.resourceId
  | _ => none

/-- The entries that have been inserted, with the ids that were returned for them. -/
def inserted (history : TableHistory) : List (ResourceId × ResourceEntry) :=
  history.filterMap insertion

/-- The ids under which an entry has been removed. -/
def removed (history : TableHistory) : List ResourceId := history.filterMap removal

/-- How often a slot has been filled. -/
def fills (history : TableHistory) (i : ℕ) : ℕ :=
  history.inserted.countP fun p => p.1.index = i

/-- No slot is reused `2 ^ 32` times: after it was first filled, it is filled fewer times again. -/
def Unwrapped (history : TableHistory) : Prop := ∀ i, history.fills i ≤ 2 ^ 32

end TableHistory

/-! ## The operations in place agree with those of the table -/

namespace ResourceTable

variable {table table' : ResourceTable} {handle : BufferHandle} {entry : ResourceEntry}
  {id : ResourceId}

theorem foldl_pushVacant (stop : ℕ) (slots : List ℕ) (table : ResourceTable) :
    slots.foldl (pushVacant stop) table = { table with
      entries := table.entries ++
        slots.map fun i => .vacant (if i + 1 < stop then i + 1 else freeListEnd) 0 } := by
  induction slots generalizing table with
  | nil => rw [List.foldl_nil, List.map_nil, List.append_nil]
  | cons i slots ih =>
      rw [List.foldl_cons, ih, pushVacant]
      simp only [List.append_assoc, List.singleton_append, List.map_cons]

/-- A table that can grow does. -/
theorem growInPlace_of_ok (h : table.grow = .ok table') : table.growInPlace = (.ok (), table') := by
  unfold growInPlace
  unfold grow at h
  dsimp only at h ⊢
  split at h
  · cases h
  · rename_i hcap
    obtain rfl := Except.ok.inj h
    rw [if_neg hcap, foldl_pushVacant]
    rfl

/-- A table that cannot grow is left as it was. -/
theorem growInPlace_of_error {e : ResourceError} (h : table.grow = .error e) :
    table.growInPlace = (.error e, table) := by
  unfold growInPlace
  unfold grow at h
  dsimp only at h ⊢
  split at h
  · rename_i hcap
    obtain rfl := Except.error.inj h
    rw [if_pos hcap]
  · cases h

/-- The occupied slots fit into the table. -/
theorem length_iter_le (table : ResourceTable) : table.iter.length ≤ table.entries.length := by
  have hle := List.length_filterMap_le (fun p => p.1.resource p.2) table.entries.zipIdx
  rwa [List.length_zipIdx] at hle

theorem WellFormed.len_le (h : table.WellFormed) : table.len ≤ 2 ^ 32 - 1 := by
  have hle := table.length_iter_le
  rw [h.length, ← h.len] at hle
  exact hle.trans h.capacity_le

theorem fillHead_eq (h : table.WellFormed) (hne : table.freeHead ≠ freeListEnd)
    (entry : ResourceEntry) : ∃ id table', table.insertAtHead entry = .ok (id, table') ∧
      table'.WellFormed ∧ table.fillHead entry = some (.ok id, table') := by
  obtain ⟨id, table', hinsert, hwf⟩ := h.insertAtHead hne entry
  refine ⟨id, table', hinsert, hwf, ?_⟩
  obtain ⟨nextFree, generation, hslot, -⟩ := h.vacant_head hne
  have hlen : table.len + 1 ≤ 2 ^ 32 - 1 := (insertAtHead_spec hinsert).2 ▸ hwf.len_le
  unfold insertAtHead at hinsert
  unfold fillHead
  simp only [hslot, Except.ok.injEq, Prod.mk.injEq] at hinsert ⊢
  obtain ⟨rfl, rfl⟩ := hinsert
  rw [if_neg (Nat.not_lt.mpr hlen)]

/-- An insertion that succeeds. -/
theorem insertInPlace_of_ok (h : table.WellFormed) (hinsert : table.insert entry = .ok (id, table')) :
    table.insertInPlace entry = some (.ok id, table') := by
  unfold ResourceTable.insert at hinsert
  unfold insertInPlace
  split at hinsert
  · rename_i hempty
    rw [if_pos hempty]
    cases hgrow : table.grow with
    | error e =>
        rw [hgrow] at hinsert
        cases hinsert
    | ok grown =>
        rw [hgrow] at hinsert
        obtain ⟨hgrown, hne⟩ := h.grow hgrow
        obtain ⟨_, _, hok, -, hfill⟩ := fillHead_eq hgrown hne entry
        cases hinsert.symm.trans hok
        rw [growInPlace_of_ok hgrow]
        exact hfill
  · rename_i hne
    obtain ⟨_, _, hok, -, hfill⟩ := fillHead_eq h hne entry
    cases hinsert.symm.trans hok
    rw [if_neg hne, hfill]

/-- **An insertion that fails** found the free list empty and could not grow the table, which is
left as it was. -/
theorem insertInPlace_of_error {e : ResourceError} (h : table.WellFormed)
    (hinsert : table.insert entry = .error e) :
    table.insertInPlace entry = some (.error e, table) := by
  obtain ⟨hempty, -⟩ := h.insert_error hinsert
  unfold ResourceTable.insert at hinsert
  unfold insertInPlace
  rw [if_pos hempty] at hinsert ⊢
  cases hgrow : table.grow with
  | error e' =>
      rw [hgrow] at hinsert
      obtain rfl := Except.error.inj hinsert
      rw [growInPlace_of_error hgrow]
  | ok grown =>
      rw [hgrow] at hinsert
      obtain ⟨hgrown, hne⟩ := h.grow hgrow
      obtain ⟨_, _, hok, -⟩ := fillHead_eq hgrown hne entry
      cases hinsert.symm.trans hok

/-- `get_mut` makes the same checks as `get`, and writes where `put` does. -/
theorem getMut_eq (handle : BufferHandle) (table : ResourceTable) :
    table.getMut handle = (table.get handle).map fun entry =>
      (entry, fun written => table.put handle written) := by
  unfold getMut get
  dsimp only
  generalize table.entries[handle.resourceId.index]? = found
  rcases found with _ | (entry | ⟨_, _⟩)
  · rfl
  · dsimp only
    split <;> rfl
  · rfl

/-- A removal that succeeds. -/
theorem removeInPlace_of_ok (h : table.WellFormed) (hget : table.get handle = .ok entry) :
    ∃ table', table.remove handle = .ok (entry, table') ∧
      table.removeInPlace handle = some (.ok entry, table') := by
  obtain ⟨hslot, hgen⟩ := slot_of_get hget
  have hlen : table.len ≠ 0 := by
    rw [h.len]
    intro hzero
    have hmem := get_eq_ok.mp hget
    rw [List.eq_nil_of_length_eq_zero hzero] at hmem
    cases hmem
  refine ⟨_, by rw [ResourceTable.remove, hget], ?_⟩
  unfold removeInPlace
  simp only [hslot, hgen, ne_eq, not_true_eq_false, if_false, hlen]

/-- A removal that fails leaves the table as it was. -/
theorem removeInPlace_of_error {e : ResourceError} (hget : table.get handle = .error e) :
    table.removeInPlace handle = some (.error e, table) := by
  unfold removeInPlace
  unfold get at hget
  dsimp only at hget ⊢
  split at hget
  · rename_i hslot
    cases hget
    simp only [hslot]
  · rename_i found hslot
    split at hget
    · cases hget
    · rename_i hgen
      cases hget
      simp only [hslot, ne_eq, hgen, not_false_eq_true, if_true]
  · rename_i hslot
    cases hget
    simp only [hslot]

/-! ## Generations -/

/-- The generation of a slot: that of its entry, or the one it keeps while it is vacant. A slot
that has not been added yet counts as one of generation zero. -/
def generation (table : ResourceTable) (i : ℕ) : ℕ :=
  (table.entries[i]?.map Slot.generation).getD 0

theorem generation_of_slot {i : ℕ} {slot : Slot} (h : table.entries[i]? = some slot) :
    table.generation i = slot.generation := by
  rw [generation, h]
  rfl

/-- Overwriting a slot sets its generation. -/
theorem generation_set {entries : List Slot} {i : ℕ} (hi : i < entries.length) (slot : Slot)
    (head len cap : ℕ) : generation ⟨entries.set i slot, head, len, cap⟩ =
      Function.update (generation ⟨entries, head, len, cap⟩) i slot.generation := by
  funext j
  unfold generation
  by_cases hj : j = i
  · subst hj
    rw [Function.update_self, List.getElem?_set_self hi]
    rfl
  · rw [Function.update_of_ne hj, List.getElem?_set_ne (Ne.symm hj)]

/-- New slots start with the generation zero. -/
theorem generation_grow (h : table.grow = .ok table') : table'.generation = table.generation := by
  unfold grow at h
  dsimp only at h
  split at h
  · cases h
  · obtain rfl := Except.ok.inj h
    funext i
    unfold generation
    by_cases hi : i < table.entries.length
    · rw [List.getElem?_append_left hi]
    · rw [List.getElem?_append_right (Nat.not_lt.mp hi), List.getElem?_eq_none (Nat.not_lt.mp hi),
        vacantSlots, List.getElem?_map]
      cases (List.range' table.capacity
        (table.capacity * 2 - table.capacity))[i - table.entries.length]? <;> rfl

theorem generation_insertAtHead (h : table.insertAtHead entry = .ok (id, table')) :
    id.generation = (table.generation id.index + 1) % 2 ^ 32 ∧
      table'.generation = Function.update table.generation id.index id.generation := by
  unfold insertAtHead at h
  dsimp only at h
  split at h
  · rename_i nextFree generation hslot
    simp only [Except.ok.injEq, Prod.mk.injEq] at h
    obtain ⟨rfl, rfl⟩ := h
    refine ⟨by rw [generation_of_slot hslot]; rfl, ?_⟩
    exact generation_set (List.getElem?_eq_some_iff.mp hslot).1 _ _ _ _
  · cases h

/-- **Filling a slot** raises its generation by one, and the id carries the new generation. -/
theorem generation_insert (h : table.insert entry = .ok (id, table')) :
    id.generation = (table.generation id.index + 1) % 2 ^ 32 ∧
      table'.generation = Function.update table.generation id.index id.generation := by
  unfold ResourceTable.insert at h
  split at h
  · split at h
    · cases h
    · rename_i grown hgrow
      rw [← generation_grow hgrow]
      exact generation_insertAtHead h
  · exact generation_insertAtHead h

/-- Removing an entry leaves the generations as they are. -/
theorem generation_remove (h : table.remove handle = .ok (entry, table')) :
    table'.generation = table.generation := by
  unfold ResourceTable.remove at h
  split at h
  · cases h
  · rename_i found hget
    simp only [Except.ok.injEq, Prod.mk.injEq] at h
    obtain ⟨rfl, rfl⟩ := h
    obtain ⟨hslot, -⟩ := slot_of_get hget
    rw [generation_set (List.getElem?_eq_some_iff.mp hslot).1]
    exact Function.update_eq_self_iff.mpr (generation_of_slot hslot).symm

/-! ## The free list -/

/-- The free list runs through the vacant slots, each once, and through no others. -/
def FreeSlots (table : ResourceTable) : Prop :=
  ∃ l, FreeList table.next freeListEnd table.freeHead l ∧
    ∀ i, i ∈ l ↔ ∃ nextFree generation, table.entries[i]? = some (.vacant nextFree generation)

theorem next_isSome_iff {i : ℕ} : (table.next i).isSome ↔
    ∃ nextFree generation, table.entries[i]? = some (.vacant nextFree generation) := by
  unfold next
  split
  · rename_i nextFree generation hslot
    exact iff_of_true rfl ⟨nextFree, generation, hslot⟩
  · rename_i hnot
    refine iff_of_false (by simp) ?_
    rintro ⟨nextFree, generation, hslot⟩
    exact hnot nextFree generation hslot

/-- Where no other slot is vacant, slots that are added at the end are the free ones. -/
theorem freeSlots_vacantSlots {old : List Slot} {stop : ℕ}
    (hentries : table.entries = old ++ vacantSlots old.length stop) (hle : stop ≤ freeListEnd)
    (hlt : old.length < stop) (hhead : table.freeHead = old.length)
    (hold : ∀ (i : ℕ) nextFree generation, old[i]? ≠ some (.vacant nextFree generation)) :
    table.FreeSlots := by
  have hfree := freeList_vacantSlots hentries hle
  rw [if_pos hlt, ← hhead] at hfree
  refine ⟨_, hfree, fun i => ⟨fun hi => ?_, ?_⟩⟩
  · exact next_isSome_iff.mp (hfree.chain.linked i hi)
  · rintro ⟨nextFree, generation, hslot⟩
    rw [hentries] at hslot
    have hi : ¬ i < old.length := by
      intro hi
      rw [List.getElem?_append_left hi] at hslot
      exact hold _ _ _ hslot
    have hbound := (List.getElem?_eq_some_iff.mp hslot).1
    rw [List.length_append, length_vacantSlots] at hbound
    rw [hhead, List.mem_range'_1]
    omega

theorem FreeSlots.new {capacity : ℕ} (hpos : 0 < capacity) (hle : capacity ≤ freeListEnd) :
    (ResourceTable.new capacity).FreeSlots := by
  have hentries : (ResourceTable.new capacity).entries =
      ([] : List Slot) ++ vacantSlots ([] : List Slot).length capacity := rfl
  exact freeSlots_vacantSlots hentries hle hpos rfl fun i nextFree generation h => by simp at h

/-- The table grows when no slot is free. -/
theorem FreeSlots.grow (h : table.FreeSlots) (hwf : table.WellFormed)
    (hempty : table.freeHead = freeListEnd) (hgrow : table.grow = .ok table') :
    table'.FreeSlots := by
  obtain ⟨l, hl, hvacant⟩ := h
  rw [hempty] at hl
  obtain rfl := hl.chain.eq_nil
  have hpos := hwf.capacity_pos
  have hle := (hwf.grow hgrow).1.capacity_le
  unfold ResourceTable.grow at hgrow
  dsimp only at hgrow
  split at hgrow
  · cases hgrow
  · obtain rfl := Except.ok.inj hgrow
    have hentries : table.entries ++ vacantSlots table.capacity (table.capacity * 2) =
        table.entries ++ vacantSlots table.entries.length (table.capacity * 2) := by rw [hwf.length]
    have hlt : table.entries.length < table.capacity * 2 := by
      rw [hwf.length]
      omega
    have hfull : ∀ (i : ℕ) nextFree generation,
        table.entries[i]? ≠ some (.vacant nextFree generation) := fun i _ _ hslot =>
      absurd ((hvacant i).mpr ⟨_, _, hslot⟩) List.not_mem_nil
    exact @freeSlots_vacantSlots { table with
      entries := table.entries ++ vacantSlots table.capacity (table.capacity * 2)
      freeHead := table.capacity
      capacity := table.capacity * 2 } _ _ hentries hle hlt hwf.length.symm hfull

theorem FreeSlots.insertAtHead (h : table.FreeSlots) (hne : table.freeHead ≠ freeListEnd)
    (hinsert : table.insertAtHead entry = .ok (id, table')) : table'.FreeSlots := by
  obtain ⟨l, hl, hvacant⟩ := h
  obtain ⟨j, rest, hj, rfl, hnot, hrest⟩ := hl.pop hne
  unfold ResourceTable.insertAtHead at hinsert
  dsimp only at hinsert
  split at hinsert
  · rename_i nextFree generation hslot
    simp only [Except.ok.injEq, Prod.mk.injEq] at hinsert
    obtain ⟨-, rfl⟩ := hinsert
    have hhead := (List.getElem?_eq_some_iff.mp hslot).1
    obtain rfl : nextFree = j := by simpa [ResourceTable.next, hslot] using hj
    refine ⟨rest, hrest.congr fun i hi => ?_, fun i => ?_⟩
    · have hi : table.freeHead ≠ i := fun heq => hnot (heq ▸ hi)
      simp only [ResourceTable.next, List.getElem?_set_ne hi]
    · by_cases hi : table.freeHead = i
      · subst hi
        simp [List.getElem?_set_self hhead, hnot]
      · rw [List.getElem?_set_ne hi, ← hvacant i, List.mem_cons, or_iff_right (Ne.symm hi)]
  · cases hinsert

/-- **Inserting takes the first slot off the free list**, after adding slots when it is empty. -/
theorem FreeSlots.insert (h : table.FreeSlots) (hwf : table.WellFormed)
    (hinsert : table.insert entry = .ok (id, table')) : table'.FreeSlots := by
  unfold ResourceTable.insert at hinsert
  split at hinsert
  · rename_i hempty
    split at hinsert
    · cases hinsert
    · rename_i grown hgrow
      exact (h.grow hwf hempty hgrow).insertAtHead (hwf.grow hgrow).2 hinsert
  · rename_i hne
    exact h.insertAtHead hne hinsert

/-- **Removing puts the slot on the free list.** -/
theorem FreeSlots.remove (h : table.FreeSlots) (hwf : table.WellFormed)
    (hget : table.get handle = .ok entry) (hremove : table.remove handle = .ok (entry, table')) :
    table'.FreeSlots := by
  obtain ⟨hslot, -⟩ := slot_of_get hget
  obtain ⟨hlt, -⟩ := List.getElem?_eq_some_iff.mp hslot
  obtain ⟨l, hl, hvacant⟩ := h
  rw [ResourceTable.remove, hget] at hremove
  simp only [Except.ok.injEq, Prod.mk.injEq, true_and] at hremove
  subst hremove
  refine ⟨handle.resourceId.index :: l, hl.push (fun hi => ?_) ?_ ?_ fun j hj => ?_, fun i => ?_⟩
  · obtain ⟨nextFree, generation, hvac⟩ := (hvacant _).mp hi
    rw [hslot] at hvac
    cases hvac
  · have hlength := hwf.length
    have hcap := hwf.capacity_le
    show handle.resourceId.index ≠ freeListEnd
    omega
  · simp [ResourceTable.next, List.getElem?_set_self hlt]
  · simp only [ResourceTable.next, List.getElem?_set_ne (Ne.symm hj)]
  · by_cases hi : handle.resourceId.index = i
    · subst hi
      simp [List.getElem?_set_self hlt]
    · rw [List.getElem?_set_ne hi, ← hvacant i, List.mem_cons, or_iff_right (Ne.symm hi)]

end ResourceTable

/-! ## Histories -/

namespace TableHistory

variable {history : TableHistory}

theorem inserted_append (history history' : TableHistory) :
    (history ++ history' : TableHistory).inserted = history.inserted ++ history'.inserted :=
  List.filterMap_append

theorem removed_append (history history' : TableHistory) :
    (history ++ history' : TableHistory).removed = history.removed ++ history'.removed :=
  List.filterMap_append

/-- A history that begins an unwrapped one is unwrapped. -/
theorem Unwrapped.of_append {history' : TableHistory}
    (h : Unwrapped (history ++ history' : TableHistory)) : history.Unwrapped := by
  intro i
  have hi := h i
  unfold fills at hi ⊢
  rw [inserted_append, List.countP_append] at hi
  omega

end TableHistory

/-- What a table and the calls that led to it have to do with one another. -/
structure Slab (history : TableHistory) (table : ResourceTable) : Prop where
  wellFormed : table.WellFormed
  free : table.FreeSlots
  /-- the generation of a slot counts how often it was filled -/
  counted : ∀ i, table.generation i = history.fills i % 2 ^ 32
  /-- the ids of a slot are numbered by these counts -/
  numbered : ∀ p ∈ history.inserted, ∃ k, 1 ≤ k ∧ k ≤ history.fills p.1.index ∧
    p.1.generation = k % 2 ^ 32
  stored : ∀ p ∈ table.iter, p ∈ history.inserted
  known : ∀ id ∈ history.removed, id ∈ history.inserted.map Prod.fst
  distinct : history.Unwrapped → (history.inserted.map Prod.fst).Nodup
  live : history.Unwrapped → ∀ p, p ∈ table.iter ↔ p ∈ history.inserted ∧ p.1 ∉ history.removed

namespace Slab

variable {history : TableHistory} {table table' : ResourceTable}

theorem iter_new (capacity : ℕ) : (ResourceTable.new capacity).iter = [] :=
  Slot.resources_append_vacant [] 0 capacity

/-- A new table. -/
theorem new {capacity : ℕ} (hpos : 0 < capacity) (hle : capacity ≤ freeListEnd) :
    Slab [] (.new capacity) where
  wellFormed := .new hpos hle
  free := .new hpos hle
  counted := by
    intro i
    show ResourceTable.generation _ i = 0
    unfold ResourceTable.generation ResourceTable.new ResourceTable.vacantSlots
    rw [List.getElem?_map]
    cases (List.range' 0 (capacity - 0))[i]? <;> rfl
  numbered := fun p hp => absurd hp List.not_mem_nil
  stored := by
    intro p hp
    rw [iter_new] at hp
    exact hp
  known := fun id hid => absurd hid List.not_mem_nil
  distinct := fun _ => List.nodup_nil
  live := by
    intro _ p
    rw [iter_new]
    exact iff_of_false List.not_mem_nil fun h => absurd h.1 List.not_mem_nil

/-- What matters of a history is what was inserted and removed. -/
theorem congr {history' : TableHistory} (h : Slab history table)
    (hinserted : history'.inserted = history.inserted)
    (hremoved : history'.removed = history.removed) : Slab history' table := by
  have hfills : history'.fills = history.fills := by
    unfold TableHistory.fills
    rw [hinserted]
  have hunwrapped : history'.Unwrapped ↔ history.Unwrapped := by
    unfold TableHistory.Unwrapped
    rw [hfills]
  refine ⟨h.wellFormed, h.free, ?_, ?_, ?_, ?_, ?_, ?_⟩
  · rw [hfills]
    exact h.counted
  · rw [hinserted, hfills]
    exact h.numbered
  · rw [hinserted]
    exact h.stored
  · rw [hinserted, hremoved]
    exact h.known
  · rw [hinserted, hunwrapped]
    exact h.distinct
  · rw [hinserted, hremoved, hunwrapped]
    exact h.live

/-- A call that fails changes nothing. -/
theorem failed (h : Slab history table) {event : TableCall × TableReturn}
    (hinsertion : TableHistory.insertion event = none)
    (hremoval : TableHistory.removal event = none) :
    Slab (history ++ [event] : TableHistory) table := by
  have hinserted : TableHistory.inserted [event] = [] := List.filterMap_cons_none hinsertion
  have hremoved : TableHistory.removed [event] = [] := List.filterMap_cons_none hremoval
  refine h.congr ?_ ?_
  · rw [TableHistory.inserted_append, hinserted, List.append_nil]
  · rw [TableHistory.removed_append, hremoved, List.append_nil]

section Insert

variable {entry : ResourceEntry} {id : ResourceId}

/-- The history after an insertion. -/
theorem inserted_insert (history : TableHistory) (entry : ResourceEntry) (id : ResourceId) :
    (history ++ [(.insert entry, .inserted (.ok id))] : TableHistory).inserted =
      history.inserted ++ [(id, { entry with generation := id.generation })] :=
  TableHistory.inserted_append _ _

theorem removed_insert (history : TableHistory) (entry : ResourceEntry) (id : ResourceId) :
    (history ++ [(.insert entry, .inserted (.ok id))] : TableHistory).removed = history.removed :=
  (TableHistory.removed_append _ _).trans (List.append_nil _)

theorem fills_insert (history : TableHistory) (entry : ResourceEntry) (id : ResourceId) (i : ℕ) :
    (history ++ [(.insert entry, .inserted (.ok id))] : TableHistory).fills i =
      history.fills i + if id.index = i then 1 else 0 := by
  unfold TableHistory.fills
  rw [inserted_insert, List.countP_append, List.countP_singleton]
  simp only [decide_eq_true_eq]

/-- **The id of an insertion is new**, unless its slot has been filled too often. -/
theorem fresh (h : Slab history table) (hinsert : table.insert entry = .ok (id, table'))
    (hbound : history.fills id.index + 1 ≤ 2 ^ 32) : id ∉ history.inserted.map Prod.fst := by
  intro hmem
  obtain ⟨p, hp, rfl⟩ := List.mem_map.mp hmem
  obtain ⟨k, hpos, hle, hgen⟩ := h.numbered p hp
  have hnew := (ResourceTable.generation_insert hinsert).1
  rw [h.counted, hgen] at hnew
  omega

/-- An insertion. -/
theorem insert (h : Slab history table) (hinsert : table.insert entry = .ok (id, table')) :
    Slab (history ++ [(.insert entry, .inserted (.ok id))] : TableHistory) table' := by
  obtain ⟨hgen, hupdate⟩ := ResourceTable.generation_insert hinsert
  obtain ⟨hperm, -⟩ := ResourceTable.insert_spec hinsert
  have hfresh : (history ++ [(.insert entry, .inserted (.ok id))] : TableHistory).Unwrapped →
      id ∉ history.inserted.map Prod.fst := by
    intro hunwrapped
    have hbound := hunwrapped id.index
    rw [fills_insert, if_pos rfl] at hbound
    exact h.fresh hinsert hbound
  refine ⟨h.wellFormed.insert hinsert, h.free.insert h.wellFormed hinsert, fun i => ?_,
    fun p hp => ?_, fun p hp => ?_, fun removedId hid => ?_, fun hunwrapped => ?_,
    fun hunwrapped p => ?_⟩
  · rw [hupdate, fills_insert]
    by_cases hi : id.index = i
    · subst hi
      rw [Function.update_self, if_pos rfl, hgen, h.counted]
      omega
    · rw [Function.update_of_ne (Ne.symm hi), if_neg hi, h.counted, Nat.add_zero]
  · rw [inserted_insert] at hp
    rw [fills_insert]
    rcases List.mem_append.mp hp with hold | hnew
    · obtain ⟨k, hpos, hle, hk⟩ := h.numbered p hold
      exact ⟨k, hpos, hle.trans (Nat.le_add_right _ _), hk⟩
    · obtain rfl := List.mem_singleton.mp hnew
      refine ⟨history.fills id.index + 1, by omega, ?_, ?_⟩
      · rw [if_pos rfl]
      · show id.generation = _
        rw [hgen, h.counted]
        omega
  · rw [inserted_insert]
    rcases List.mem_cons.mp (hperm.mem_iff.mp hp) with rfl | hold
    · exact List.mem_append_right _ (List.mem_singleton_self _)
    · exact List.mem_append_left _ (h.stored p hold)
  · rw [removed_insert] at hid
    rw [inserted_insert, List.map_append]
    exact List.mem_append_left _ (h.known removedId hid)
  · rw [inserted_insert, List.map_append, List.map_singleton]
    refine List.Nodup.append (h.distinct hunwrapped.of_append) (List.nodup_singleton _) ?_
    intro other hother hid
    rw [List.mem_singleton.mp hid] at hother
    exact hfresh hunwrapped hother
  · rw [hperm.mem_iff, List.mem_cons, h.live hunwrapped.of_append, inserted_insert,
      removed_insert, List.mem_append, List.mem_singleton]
    have hnot : id ∉ history.removed := fun hid => hfresh hunwrapped (h.known id hid)
    constructor
    · rintro (rfl | ⟨hold, hkept⟩)
      · exact ⟨.inr rfl, hnot⟩
      · exact ⟨.inl hold, hkept⟩
    · rintro ⟨hold | hnew, hkept⟩
      · exact .inr ⟨hold, hkept⟩
      · exact .inl hnew

end Insert

section Remove

variable {entry : ResourceEntry} {handle : BufferHandle}

theorem inserted_remove (history : TableHistory) (handle : BufferHandle) (entry : ResourceEntry) :
    (history ++ [(.remove handle, .removed (.ok entry))] : TableHistory).inserted =
      history.inserted :=
  (TableHistory.inserted_append _ _).trans (List.append_nil _)

theorem removed_remove (history : TableHistory) (handle : BufferHandle) (entry : ResourceEntry) :
    (history ++ [(.remove handle, .removed (.ok entry))] : TableHistory).removed =
      history.removed ++ [handle.resourceId] :=
  TableHistory.removed_append _ _

/-- A removal. -/
theorem remove (h : Slab history table) (hget : table.get handle = .ok entry)
    (hremove : table.remove handle = .ok (entry, table')) :
    Slab (history ++ [(.remove handle, .removed (.ok entry))] : TableHistory) table' := by
  obtain ⟨_, hremove', hperm⟩ := ResourceTable.remove_spec hget
  cases hremove.symm.trans hremove'
  have hnodup := List.nodup_cons.mp ((hperm.map Prod.fst).nodup_iff.mp table.nodup_iter)
  have hfills : (history ++ [(.remove handle, .removed (.ok entry))] : TableHistory).fills =
      history.fills := by
    unfold TableHistory.fills
    rw [inserted_remove]
  refine ⟨h.wellFormed.remove hget hremove, h.free.remove h.wellFormed hget hremove, ?_, ?_,
    fun p hp => ?_, fun removedId hid => ?_, fun hunwrapped => ?_, fun hunwrapped p => ?_⟩
  · rw [hfills, ResourceTable.generation_remove hremove]
    exact h.counted
  · rw [hfills, inserted_remove]
    exact h.numbered
  · rw [inserted_remove]
    exact h.stored p (hperm.mem_iff.mpr (List.mem_cons_of_mem _ hp))
  · rw [removed_remove] at hid
    rw [inserted_remove]
    rcases List.mem_append.mp hid with hold | hnew
    · exact h.known removedId hold
    · obtain rfl := List.mem_singleton.mp hnew
      exact List.mem_map.mpr ⟨_, h.stored _ (ResourceTable.get_eq_ok.mp hget), rfl⟩
  · rw [inserted_remove]
    exact h.distinct hunwrapped.of_append
  · rw [inserted_remove, removed_remove, List.mem_append, List.mem_singleton, not_or,
      ← and_assoc, ← h.live hunwrapped.of_append, hperm.mem_iff, List.mem_cons]
    constructor
    · intro hp
      refine ⟨.inr hp, fun heq => hnodup.1 ?_⟩
      exact List.mem_map.mpr ⟨p, hp, heq⟩
    · rintro ⟨rfl | hp, hne⟩
      · exact absurd rfl hne
      · exact hp

end Remove

/-- **One call**: it does not panic, and the table and the history stay in step. -/
theorem call (h : Slab history table) (c : TableCall) : ∃ result table',
    table.call c = some (result, table') ∧ Slab (history ++ [(c, result)] : TableHistory) table' := by
  cases c with
  | insert entry =>
      cases hinsert : table.insert entry with
      | ok inserted =>
          obtain ⟨id, table'⟩ := inserted
          refine ⟨.inserted (.ok id), table', ?_, h.insert hinsert⟩
          rw [ResourceTable.call, ResourceTable.insertInPlace_of_ok h.wellFormed hinsert]
          rfl
      | error e =>
          refine ⟨.inserted (.error e), table, ?_, h.failed rfl rfl⟩
          rw [ResourceTable.call, ResourceTable.insertInPlace_of_error h.wellFormed hinsert]
          rfl
  | remove handle =>
      cases hget : table.get handle with
      | ok entry =>
          obtain ⟨table', hremove, hinPlace⟩ :=
            ResourceTable.removeInPlace_of_ok h.wellFormed hget
          refine ⟨.removed (.ok entry), table', ?_, h.remove hget hremove⟩
          rw [ResourceTable.call, hinPlace]
          rfl
      | error e =>
          refine ⟨.removed (.error e), table, ?_, h.failed rfl rfl⟩
          rw [ResourceTable.call, ResourceTable.removeInPlace_of_error hget]
          rfl

/-- Any sequence of calls. -/
theorem run (h : Slab history table) (calls : List TableCall) : ∃ history' table',
    table.run calls = some (history', table') ∧ Slab (history ++ history' : TableHistory) table' := by
  induction calls generalizing history table with
  | nil => exact ⟨[], table, rfl, by rwa [List.append_nil]⟩
  | cons c calls ih =>
      obtain ⟨result, table₁, hcall, hslab⟩ := h.call c
      obtain ⟨history', table', hrun, hslab'⟩ := ih hslab
      refine ⟨(c, result) :: history', table', ?_, ?_⟩
      · rw [ResourceTable.run, hcall]
        simp only [Option.bind_eq_bind, Option.bind_some, hrun]
      · rwa [List.append_assoc, List.singleton_append] at hslab'

/-- **The look-ups**: an id leads to its entry as long as the entry has not been removed. -/
theorem lookup (h : Slab history table) (hunwrapped : history.Unwrapped) (handle : BufferHandle)
    (entry : ResourceEntry) : table.get handle = .ok entry ↔
      (handle.resourceId, entry) ∈ history.inserted ∧ handle.resourceId ∉ history.removed := by
  rw [ResourceTable.get_eq_ok]
  exact h.live hunwrapped (handle.resourceId, entry)

end Slab

namespace ResourceTable

variable {table : ResourceTable} {handle : BufferHandle} {entry : ResourceEntry}

theorem getMut_ok_iff :
    (∃ write, table.getMut handle = .ok (entry, write)) ↔ table.get handle = .ok entry := by
  rw [getMut_eq]
  cases table.get handle with
  | error e => exact iff_of_false (fun ⟨_, h⟩ => by cases h) fun h => by cases h
  | ok found =>
      constructor
      · rintro ⟨write, h⟩
        obtain ⟨rfl, -⟩ := Prod.mk.inj (Except.ok.inj h)
        rfl
      · intro h
        obtain rfl := Except.ok.inj h
        exact ⟨_, rfl⟩

theorem removeInPlace_ok_iff (h : table.WellFormed) :
    (∃ left, table.removeInPlace handle = some (.ok entry, left)) ↔
      table.get handle = .ok entry := by
  cases hget : table.get handle with
  | error e =>
      rw [removeInPlace_of_error hget]
      exact iff_of_false (fun ⟨_, h⟩ => by cases h) fun h => by cases h
  | ok found =>
      obtain ⟨table', -, hinPlace⟩ := removeInPlace_of_ok h hget
      rw [hinPlace]
      constructor
      · rintro ⟨left, hleft⟩
        cases hleft
        rfl
      · intro hfound
        obtain rfl := Except.ok.inj hfound
        exact ⟨table', rfl⟩

/-- **The resource table is a generational slab.**  From any initial capacity, a sequence of
insertions and removals panics nowhere; the free list has exactly the vacant slots, each once; and
a table that cannot grow is left as it was.  As long as no slot is reused `2 ^ 32` times, no two
insertions return the same id, and `get`, `get_mut` and `remove` succeed exactly with the ids whose
entries have not been removed, and yield these entries. -/
theorem slab_correct (capacity : UInt32) (hcapacity : 0 < capacity) (calls : List TableCall) :
    ∃ history table, (ResourceTable.new capacity.toNat).run calls = some (history, table) ∧
      table.FreeSlots ∧
      (∀ e left, table.growInPlace = (.error e, left) → left = table) ∧
      (∀ entry e left, table.insertInPlace entry = some (.error e, left) → left = table) ∧
      (TableHistory.Unwrapped history →
        ((TableHistory.inserted history).map Prod.fst).Nodup ∧
        ∀ handle entry,
          (table.get handle = .ok entry ↔
            (handle.resourceId, entry) ∈ TableHistory.inserted history ∧
              handle.resourceId ∉ TableHistory.removed history) ∧
          ((∃ write, table.getMut handle = .ok (entry, write)) ↔
            (handle.resourceId, entry) ∈ TableHistory.inserted history ∧
              handle.resourceId ∉ TableHistory.removed history) ∧
          ((∃ left, table.removeInPlace handle = some (.ok entry, left)) ↔
            (handle.resourceId, entry) ∈ TableHistory.inserted history ∧
              handle.resourceId ∉ TableHistory.removed history)) := by
  have hpos : 0 < capacity.toNat := UInt32.lt_iff_toNat_lt.mp hcapacity
  have hle : capacity.toNat ≤ freeListEnd := Nat.le_sub_one_of_lt capacity.toNat_lt
  obtain ⟨history, table, hrun, hslab⟩ := (Slab.new hpos hle).run calls
  rw [List.nil_append] at hslab
  refine ⟨history, table, hrun, hslab.free, ?_, ?_, fun hunwrapped => ?_⟩
  · intro e left hgrow
    cases hok : table.grow with
    | ok grown =>
        rw [growInPlace_of_ok hok] at hgrow
        cases hgrow
    | error e' =>
        rw [growInPlace_of_error hok] at hgrow
        exact (Prod.mk.inj hgrow).2.symm
  · intro entry e left hfail
    cases hinsert : table.insert entry with
    | ok inserted =>
        rw [insertInPlace_of_ok hslab.wellFormed hinsert] at hfail
        cases hfail
    | error e' =>
        rw [insertInPlace_of_error hslab.wellFormed hinsert] at hfail
        cases hfail
        rfl
  · refine ⟨hslab.distinct hunwrapped, fun handle entry => ?_⟩
    rw [getMut_ok_iff, removeInPlace_ok_iff hslab.wellFormed]
    exact ⟨hslab.lookup hunwrapped handle entry, hslab.lookup hunwrapped handle entry,
      hslab.lookup hunwrapped handle entry⟩

/-- An entry of eight bytes. -/
def eightBytes : ResourceEntry :=
  ⟨0, .owned, .host, 0, 0, 8, 8, 0, .small, false, ⟨1⟩⟩

/-- Two entries in a table of one slot, which grows; the first one is removed and its slot filled
again.  The third id has the slot of the first one and leads to the third entry. -/
theorem slab_correct_reuse : ∃ history table,
    (ResourceTable.new 1).run [.insert eightBytes, .insert eightBytes, .remove ⟨⟨0, 1⟩⟩,
      .insert eightBytes] = some (history, table) ∧
    ((TableHistory.inserted history).map Prod.fst).Nodup ∧
    table.get ⟨⟨0, 2⟩⟩ = .ok { eightBytes with generation := 2 } ∧
    ∀ entry, table.get ⟨⟨0, 1⟩⟩ ≠ .ok entry := by
  obtain ⟨history, table, hrun, -, -, -, hids⟩ := slab_correct 1 (by decide)
    [.insert eightBytes, .insert eightBytes, .remove ⟨⟨0, 1⟩⟩, .insert eightBytes]
  refine ⟨history, table, hrun, ?_⟩
  cases hrun
  have hall := hids fun i => by
    refine List.countP_le_length.trans ?_
    decide
  refine ⟨hall.1, (hall.2 _ _).1.mpr (by decide), fun entry hget => ?_⟩
  exact absurd ((hall.2 _ _).1.mp hget).2 (by decide)

end ResourceTable

end Torvyn
