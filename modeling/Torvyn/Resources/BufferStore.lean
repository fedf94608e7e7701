/-
# The buffers as their users see them

What the resource manager is for: it keeps, for each handle in use, a buffer with its owner, its
borrows, its capacity and its payload.  `BufferStore.Step` says what a call may answer and what it
does to the buffers, without a table, indices, pools or memory.

`store_refined` says that the manager, over any sequence of calls, does nothing else.
-/
import Torvyn.Resources.Atomicity
import Torvyn.Resources.Payload

namespace Torvyn

open ResourceManager

/-! ## The store -/

/-- A buffer in use. -/
structure HeldBuffer where
  owner : OwnerId
  flowId : FlowId
  borrows : ℕ
  capacity : ℕ
  payload : List UInt8
  deriving DecidableEq, Repr

namespace HeldBuffer

/-- The caller owns the buffer and nobody borrows it. -/
def FreeFor (buffer : HeldBuffer) (caller : OwnerId) : Prop :=
  buffer.owner = caller ∧ buffer.borrows = 0

/-- A write.  Zeros fill the payload up to the offset. -/
def write (buffer : HeldBuffer) (offset : ℕ) (data : List UInt8) : HeldBuffer :=
  { buffer with
    payload := buffer.payload.takeD offset 0 ++ data ++ buffer.payload.drop (offset + data.length) }

end HeldBuffer

/-- The buffers in use, by their handles. -/
abbrev BufferStore := BufferHandle → Option HeldBuffer

namespace BufferStore

/-- Some buffers with their handles: those of a kind, each of them once. -/
structure Lists (store : BufferStore) (kind : HeldBuffer → Prop)
    (held : List (BufferHandle × HeldBuffer)) : Prop where
  nodup : (held.map Prod.fst).Nodup
  mem_iff : ∀ handle buffer, (handle, buffer) ∈ held ↔ store handle = some buffer ∧ kind buffer

/-- `after` is the store without the buffers of a kind. -/
def Without (store : BufferStore) (kind : HeldBuffer → Prop) (after : BufferStore) : Prop :=
  ∀ handle buffer, after handle = some buffer ↔ store handle = some buffer ∧ ¬kind buffer

/-- A call, its reply and the store after it.  An allocation can be refused for want of memory,
budget or table slots, and a transfer for want of budget; all other replies are determined. -/
inductive Step (store : BufferStore) : Op → Reply → BufferStore → Prop where
  | registerFlow (flowId : FlowId) : Step store (.registerFlow flowId) (.done (.ok ())) store
  | registerComponent (component : ComponentId) (maxOwnedBytes : Option ℕ) :
      Step store (.registerComponent component maxOwnedBytes) (.done (.ok ())) store
  | allocate (alloc : Allocator) (owner : OwnerId) (n : ℕ) (flowId : FlowId)
      (handle : BufferHandle) : n ≤ maxBufferSize → store handle = none →
      Step store (.allocate alloc owner n flowId) (.handle (.ok handle))
        (Function.update store handle (some ⟨owner, flowId, 0, actualCapacity n, []⟩))
  | allocateRefused (alloc : Allocator) (owner : OwnerId) (n : ℕ) (flowId : FlowId)
      (e : ResourceError) : Step store (.allocate alloc owner n flowId) (.handle (.error e)) store
  | release (handle : BufferHandle) (caller : OwnerId) (buffer : HeldBuffer) :
      store handle = some buffer → buffer.FreeFor caller →
      Step store (.release handle caller) (.done (.ok ())) (Function.update store handle none)
  | releaseRefused (handle : BufferHandle) (caller : OwnerId) (e : ResourceError) :
      (∀ buffer, store handle = some buffer → ¬buffer.FreeFor caller) →
      Step store (.release handle caller) (.done (.error e)) store
  | transfer (handle : BufferHandle) (sender recipient : OwnerId) (buffer : HeldBuffer) :
      store handle = some buffer → buffer.FreeFor sender →
      Step store (.transferOwnership handle sender recipient) (.done (.ok ()))
        (Function.update store handle (some { buffer with owner := recipient }))
  | transferRefused (handle : BufferHandle) (sender recipient : OwnerId) (e : ResourceError) :
      (∀ buffer, store handle = some buffer → buffer.FreeFor sender →
        ∃ component, recipient = .component component) →
      Step store (.transferOwnership handle sender recipient) (.done (.error e)) store
  | borrowStart (handle : BufferHandle) (borrower : ComponentId) (buffer : HeldBuffer) :
      store handle = some buffer →
      Step store (.borrowStart handle borrower) (.done (.ok ()))
        (Function.update store handle (some { buffer with borrows := buffer.borrows + 1 }))
  | borrowStartRefused (handle : BufferHandle) (borrower : ComponentId) (e : ResourceError) :
      store handle = none → Step store (.borrowStart handle borrower) (.done (.error e)) store
  | borrowEnd (handle : BufferHandle) (borrower : ComponentId) (buffer : HeldBuffer) :
      store handle = some buffer → 0 < buffer.borrows →
      Step store (.borrowEnd handle borrower) (.done (.ok ()))
        (Function.update store handle (some { buffer with borrows := buffer.borrows - 1 }))
  | borrowEndRefused (handle : BufferHandle) (borrower : ComponentId) (e : ResourceError) :
      (∀ buffer, store handle = some buffer → buffer.borrows = 0) →
      Step store (.borrowEnd handle borrower) (.done (.error e)) store
  | read (handle : BufferHandle) (caller : OwnerId) (offset length : ℕ) (flowId : FlowId)
      (buffer : HeldBuffer) : store handle = some buffer →
      offset + length ≤ buffer.payload.length →
      Step store (.readPayload handle caller offset length flowId)
        (.bytes (.ok ((buffer.payload.drop offset).take length))) store
  | readRefused (handle : BufferHandle) (caller : OwnerId) (offset length : ℕ) (flowId : FlowId)
      (e : ResourceError) :
      (∀ buffer, store handle = some buffer → buffer.payload.length < offset + length) →
      Step store (.readPayload handle caller offset length flowId) (.bytes (.error e)) store
  | write (handle : BufferHandle) (caller : OwnerId) (offset : ℕ) (data : List UInt8)
      (flowId : FlowId) (buffer : HeldBuffer) : store handle = some buffer →
      buffer.FreeFor caller → offset + data.length ≤ buffer.capacity →
      Step store (.writePayload handle caller offset data flowId) (.done (.ok ()))
        (Function.update store handle (some (buffer.write offset data)))
  | writeRefused (handle : BufferHandle) (caller : OwnerId) (offset : ℕ) (data : List UInt8)
      (flowId : FlowId) (e : ResourceError) :
      (∀ buffer, store handle = some buffer →
        ¬(buffer.FreeFor caller ∧ offset + data.length ≤ buffer.capacity)) →
      Step store (.writePayload handle caller offset data flowId) (.done (.error e)) store
  | forceReclaim (component : ComponentId) (hash : HashOrder)
      (held : List (BufferHandle × HeldBuffer)) (reports : List ResourceReclaimed)
      (after : BufferStore) :
      store.Lists (fun buffer => buffer.owner = .component component) held →
      reports.map (fun r => (r.resourceId, r.previousOwner, r.payloadCapacity)) =
        held.map (fun b => (b.1.resourceId, b.2.owner, b.2.capacity)) →
      store.Without (fun buffer => buffer.owner = .component component) after →
      Step store (.forceReclaim component hash) (.reclaimed reports) after
  | reclaimFlow (op : Op) (flowId : FlowId) (held : List (BufferHandle × HeldBuffer))
      (stats : FlowResourceStats) (after : BufferStore) :
      (∃ hash, op = .reclaimFlowBuffers flowId hash ∨ op = .releaseFlowResources flowId hash) →
      store.Lists (fun buffer => buffer.flowId = flowId) held →
      stats.returnedToPool + stats.deallocated = held.length →
      stats.totalBytesReleased = (held.map fun b => b.2.capacity).sum →
      stats.borrowsCleared = (held.map fun b => b.2.borrows).sum →
      store.Without (fun buffer => buffer.flowId = flowId) after →
      Step store op (.stats (.ok stats)) after

/-- The calls of a trace, the latest first, lead from no buffers to a store. -/
inductive Runs : Trace → BufferStore → Prop where
  | start : Runs [] fun _ => none
  | call {trace : Trace} {store after : BufferStore} {op : Op} {reply : Reply} :
      Runs trace store → Step store op reply after → Runs ((op, reply) :: trace) after

end BufferStore

/-! ## The buffers of the manager -/

namespace ResourceManager

/-- The buffers that the manager keeps, with the payloads that lie in its memory. -/
def store (m : ResourceManager) : BufferStore := fun handle =>
  match m.table.get handle with
  | .ok entry =>
      some ⟨entry.owner, entry.flowId, entry.borrowCount, entry.payloadCapacity,
        payloadOf m entry⟩
  | .error _ => none

/-- A resource as a buffer in use, with the contents of its handle. -/
def heldOf (contents : Contents) (p : ResourceId × ResourceEntry) : HeldBuffer :=
  ⟨p.2.owner, p.2.flowId, p.2.borrowCount, p.2.payloadCapacity,
    (List.range p.2.payloadLen).map (contents ⟨p.1⟩)⟩

/-- The buffers of a table, with the contents of the handles. -/
def view (contents : Contents) (table : ResourceTable) : BufferStore := fun handle =>
  match table.get handle with
  | .ok entry => some (heldOf contents (handle.resourceId, entry))
  | .error _ => none

variable {contents contents' : Contents} {table table' : ResourceTable} {handle : BufferHandle}
  {entry entry' : ResourceEntry} {buffer : HeldBuffer}

theorem view_eq_some_iff : view contents table handle = some buffer ↔
    ∃ entry, (handle.resourceId, entry) ∈ table.iter ∧
      heldOf contents (handle.resourceId, entry) = buffer := by
  rw [view]
  constructor
  · intro h
    cases hget : table.get handle with
    | ok entry =>
        rw [hget] at h
        exact ⟨entry, ResourceTable.get_eq_ok.1 hget, Option.some.inj h⟩
    | error e =>
        rw [hget] at h
        cases h
  · rintro ⟨entry, hmem, rfl⟩
    rw [ResourceTable.get_eq_ok.2 hmem]

theorem view_of_get (h : table.get handle = .ok entry) :
    view contents table handle = some (heldOf contents (handle.resourceId, entry)) :=
  view_eq_some_iff.mpr ⟨entry, ResourceTable.get_eq_ok.1 h, rfl⟩

theorem view_of_error {e : ResourceError} (h : table.get handle = .error e) :
    view contents table handle = none := by
  rw [view, h]

/-- What is live under a handle and its contents determine its buffer. -/
theorem view_congr (hlive : ∀ entry, (handle.resourceId, entry) ∈ table'.iter ↔
    (handle.resourceId, entry) ∈ table.iter) (hcontents : contents' handle = contents handle) :
    view contents' table' handle = view contents table handle := by
  apply Option.ext
  intro buffer
  have hheld : ∀ entry, heldOf contents' (handle.resourceId, entry) =
      heldOf contents (handle.resourceId, entry) := fun entry => by
    rw [heldOf, heldOf, show contents' ⟨handle.resourceId⟩ = contents ⟨handle.resourceId⟩ from
      hcontents]
  simp only [view_eq_some_iff, hlive, hheld]

theorem view_inserted {id : ResourceId} (hins : table.Inserted table' id entry)
    (hcontents : ∀ other : BufferHandle, other ≠ ⟨id⟩ → contents' other = contents other) :
    view contents' table' =
      Function.update (view contents table) ⟨id⟩ (some (heldOf contents' (id, entry))) := by
  funext other
  by_cases hother : other = ⟨id⟩
  · subst hother
    rw [Function.update_self]
    exact view_eq_some_iff.mpr ⟨entry, hins.live.mem_iff.2 List.mem_cons_self, rfl⟩
  · rw [Function.update_of_ne hother]
    refine view_congr (fun entry' => ?_) (hcontents other hother)
    rw [hins.live.mem_iff, List.mem_cons, or_iff_right]
    rintro heq
    exact hother (congrArg BufferHandle.mk (Prod.mk.inj heq).1)

theorem view_removed (hrem : table.Removed table' handle entry) :
    view contents table' = Function.update (view contents table) handle none := by
  funext other
  by_cases hother : other = handle
  · subst hother
    rw [Function.update_self]
    rw [Option.eq_none_iff_forall_ne_some]
    intro buffer hview
    obtain ⟨entry', hmem, -⟩ := view_eq_some_iff.mp hview
    exact hrem.not_mem (List.mem_map_of_mem hmem)
  · rw [Function.update_of_ne hother]
    refine view_congr (fun entry' => ?_) rfl
    rw [hrem.live.mem_iff, List.mem_cons, or_iff_right]
    rintro heq
    exact hother (congrArg BufferHandle.mk (Prod.mk.inj heq).1)

theorem view_replaced (hrep : table.Replaced table' handle entry entry')
    (hcontents : ∀ other, other ≠ handle → contents' other = contents other) :
    view contents' table' =
      Function.update (view contents table) handle
        (some (heldOf contents' (handle.resourceId, entry'))) := by
  funext other
  by_cases hother : other = handle
  · subst hother
    rw [Function.update_self]
    exact view_eq_some_iff.mpr ⟨entry', hrep.mem, rfl⟩
  · rw [Function.update_of_ne hother]
    have hne : other.resourceId ≠ handle.resourceId := fun heq =>
      hother (congrArg BufferHandle.mk heq)
    refine view_congr (fun entry'' => ⟨fun hmem => ?_, fun hmem => hrep.mem_of_ne hmem hne⟩)
      (hcontents other hother)
    rcases hrep.cases hmem with heq | ⟨hold, -⟩
    · exact absurd (Prod.mk.inj heq).1 hne
    · exact hold

section Sweeps

variable {m after : ResourceManager} {removed : List (ResourceId × ResourceEntry)}
  {kind : HeldBuffer → Prop} (chosen : ResourceEntry → Prop)

/-- The buffers of the resources that a sweep removes. -/
theorem lists_of_swept (hswept : Swept m removed after)
    (hremoved : ∀ p, p ∈ removed ↔ p ∈ m.table.iter ∧ chosen p.2)
    (hkind : ∀ p, kind (heldOf contents p) ↔ chosen p.2) :
    (view contents m.table).Lists kind
      (removed.map fun p => (⟨p.1⟩, heldOf contents p)) where
  nodup := by
    have hnodup := hswept.nodup
    rw [List.map_append] at hnodup
    rw [List.map_map]
    have hids : (removed.map Prod.fst).Nodup := (List.nodup_append.1 hnodup).1
    have hmap : removed.map (Prod.fst ∘ fun p => ((⟨p.1⟩ : BufferHandle), heldOf contents p)) =
        (removed.map Prod.fst).map BufferHandle.mk := by
      rw [List.map_map]
      rfl
    rw [hmap]
    exact hids.map fun a b h => BufferHandle.mk.inj h
  mem_iff handle buffer := by
    rw [List.mem_map, view_eq_some_iff]
    constructor
    · rintro ⟨p, hp, heq⟩
      obtain ⟨rfl, rfl⟩ := Prod.mk.inj heq
      obtain ⟨hmem, hchosen⟩ := (hremoved p).1 hp
      exact ⟨⟨p.2, hmem, rfl⟩, (hkind p).2 hchosen⟩
    · rintro ⟨⟨entry, hmem, rfl⟩, hchosen⟩
      exact ⟨(handle.resourceId, entry), (hremoved _).2 ⟨hmem, (hkind _).1 hchosen⟩, rfl⟩

theorem without_of_swept (hswept : Swept m removed after)
    (hremoved : ∀ p, p ∈ removed ↔ p ∈ m.table.iter ∧ chosen p.2)
    (hkind : ∀ p, kind (heldOf contents p) ↔ chosen p.2) :
    (view contents m.table).Without kind (view contents after.table) := by
  intro handle buffer
  rw [view_eq_some_iff, view_eq_some_iff]
  constructor
  · rintro ⟨entry, hmem, rfl⟩
    obtain ⟨hold, hnot⟩ := hswept.mem_iff.mp hmem
    exact ⟨⟨entry, hold, rfl⟩, fun hk => hnot ((hremoved _).2 ⟨hold, (hkind _).1 hk⟩)⟩
  · rintro ⟨⟨entry, hmem, rfl⟩, hnot⟩
    exact ⟨entry, hswept.mem_iff.mpr
      ⟨hmem, fun hrem => hnot ((hkind _).2 ((hremoved _).1 hrem).2)⟩, rfl⟩

end Sweeps

/-! ## What the refinement rests on -/

/-- No borrow is started while the count of its entry is at its limit. -/
def CountsBorrow (m : ResourceManager) : Op → Prop
  | .borrowStart handle _ =>
      ∀ entry, m.table.get handle = .ok entry → entry.borrowCount + 1 < 2 ^ 32
  | _ => True

/-- The invariant: the memory holds what the handles were given, nothing was given behind the end
of a payload, the indices are exact, and an entry is borrowed exactly while it is counted. -/
structure Refining (slots : PoolTier → List Block) (trace : Trace) (m : ResourceManager) :
    Prop where
  isolated : IsolatedManager slots (written trace) m
  indexed : m.IndexedManager
  beyond : ∀ p ∈ m.table.iter, ∀ i, p.2.payloadLen ≤ i → written trace ⟨p.1⟩ i = 0
  state : ∀ p ∈ m.table.iter, p.2.state = if p.2.borrowCount = 0 then .owned else .borrowed

namespace Refining

variable {slots : PoolTier → List Block} {trace : Trace} {m : ResourceManager}

theorem beyond_step (h : Refining slots trace m) (op : Op) :
    ∀ p ∈ (m.step op).2.table.iter, ∀ i, p.2.payloadLen ≤ i →
      written ((op, (m.step op).1) :: trace) ⟨p.1⟩ i = 0 := by
  have hput : ∀ {handle : BufferHandle} {entry entry' : ResourceEntry},
      m.table.get handle = .ok entry → SameResource entry entry' →
      entry'.payloadLen = entry.payloadLen → ∀ p ∈ (m.table.put handle entry').iter, ∀ i,
        p.2.payloadLen ≤ i → written trace ⟨p.1⟩ i = 0 := by
    intro handle entry entry' hget hsame hlen p hp i hi
    rcases (ResourceTable.Replaced.of_put hget entry' hsame.generation).cases hp with
      rfl | ⟨hold, -⟩
    · exact h.beyond _ (ResourceTable.get_eq_ok.1 hget) i (hlen ▸ hi)
    · exact h.beyond p hold i hi
  have hstep := step_cases m op
  generalize (m.step op).1 = reply at hstep ⊢
  generalize (m.step op).2 = after at hstep ⊢
  cases hstep with
  | registeredFlow flowId => exact h.beyond
  | registeredComponent component maxOwnedBytes => exact h.beyond
  | refused op reply _ hfailed =>
      intro p hp i hi
      rw [written, lastWritten_of_failed hfailed]
      exact h.beyond p hp i hi
  | exhausted => exact h.beyond
  | rolledBack => exact h.beyond
  | admitted alloc owner n flowId budgets buffer pools heap id table _ _ _ hins =>
      intro p hp i hi
      by_cases hid : (⟨id⟩ : BufferHandle) = ⟨p.1⟩
      · exact if_pos hid
      · refine (if_neg hid).trans ?_
        rcases List.mem_cons.1 (hins.live.mem_iff.1 hp) with rfl | hold
        · exact absurd rfl hid
        · exact h.beyond p hold i hi
  | dropped handle caller entry table hget hcheck hrem =>
      exact fun p hp => h.beyond p (hrem.live.mem_iff.2 (List.mem_cons_of_mem _ hp))
  | charged => exact h.beyond
  | moved handle sender recipient entry budgets hget =>
      exact hput hget ⟨rfl, rfl, rfl, rfl⟩ rfl
  | borrowStarted handle borrower entry borrowed hget hok =>
      obtain ⟨hsame, -, hlen⟩ := borrowStart_same hok
      exact hput hget hsame hlen
  | borrowEnded handle borrower entry returned hget hok =>
      obtain ⟨hsame, -, hlen⟩ := borrowEnd_same hok
      exact hput hget hsame hlen
  | read => exact h.beyond
  | wrote handle caller offset data flowId entry hget =>
      intro p hp i hi
      have hrep := ResourceTable.Replaced.of_put hget
        (writtenEntry entry (offset + data.length)) rfl
      have hnew : ∀ j, written ((.writePayload handle caller offset data flowId,
          .done (.ok ())) :: trace) ⟨p.1⟩ j = if handle = ⟨p.1⟩ ∧ offset ≤ j then
            (data[j - offset]?).getD (written trace ⟨p.1⟩ j) else written trace ⟨p.1⟩ j :=
        fun _ => rfl
      rw [hnew]
      rcases hrep.cases hp with rfl | ⟨hold, hne⟩
      · -- behind the new end there is neither old nor new data
        have hend : max entry.payloadLen (offset + data.length) ≤ i := hi
        have hzero := h.beyond _ (ResourceTable.get_eq_ok.1 hget) i
          (show entry.payloadLen ≤ i by omega)
        rw [List.getElem?_eq_none (by omega), Option.getD_none, ite_self]
        exact hzero
      · rw [if_neg fun hand => hne (congrArg BufferHandle.resourceId hand.1).symm]
        exact h.beyond p hold i hi
  | forceReclaimed component hash =>
      obtain ⟨removed, hswept⟩ := forceReclaim_swept (m := m) component hash
      exact fun p hp => h.beyond p (hswept.mem_of_mem hp)
  | flowReclaimed flowId hash =>
      obtain ⟨removed, hswept⟩ := reclaimFlow_swept (m := m) flowId hash
      exact fun p hp => h.beyond p (hswept.mem_of_mem hp)
  | flowReleased flowId hash =>
      obtain ⟨removed, hswept⟩ := reclaimFlow_swept (m := m) flowId hash
      exact fun p hp => h.beyond p (hswept.mem_of_mem hp)

/-- A borrow that is started below the limit is counted. -/
theorem borrowStart_eq {handle : BufferHandle} {entry : ResourceEntry}
    (hstate : entry.state = if entry.borrowCount = 0 then .owned else .borrowed)
    (hlimit : entry.borrowCount + 1 < 2 ^ 32) : Torvyn.borrowStart handle entry =
      .ok { entry with borrowCount := entry.borrowCount + 1, state := .borrowed } := by
  rw [Torvyn.borrowStart, Nat.mod_eq_of_lt hlimit, hstate]
  split_ifs <;> rfl

/-- A borrow ends if there is one. -/
theorem borrowEnd_eq {handle : BufferHandle} {entry : ResourceEntry}
    (hstate : entry.state = if entry.borrowCount = 0 then .owned else .borrowed)
    (hpos : 0 < entry.borrowCount) : Torvyn.borrowEnd handle entry =
      .ok { entry with
        borrowCount := entry.borrowCount - 1
        state := if entry.borrowCount - 1 = 0 then .owned else .borrowed } := by
  rw [if_neg (Nat.ne_of_gt hpos)] at hstate
  rw [Torvyn.borrowEnd, hstate]
  exact if_neg (Nat.ne_of_gt hpos)

theorem state_step (h : Refining slots trace m) (op : Op) (hcount : CountsBorrow m op) :
    ∀ p ∈ (m.step op).2.table.iter,
      p.2.state = if p.2.borrowCount = 0 then .owned else .borrowed := by
  have hput : ∀ {handle : BufferHandle} {entry entry' : ResourceEntry},
      m.table.get handle = .ok entry → SameResource entry entry' →
      entry'.state = (if entry'.borrowCount = 0 then .owned else .borrowed) →
      ∀ p ∈ (m.table.put handle entry').iter,
        p.2.state = if p.2.borrowCount = 0 then .owned else .borrowed := by
    intro handle entry entry' hget hsame hstate p hp
    rcases (ResourceTable.Replaced.of_put hget entry' hsame.generation).cases hp with
      rfl | ⟨hold, -⟩
    · exact hstate
    · exact h.state p hold
  have hstep := step_cases m op
  generalize (m.step op).1 = reply at hstep ⊢
  generalize (m.step op).2 = after at hstep ⊢
  cases hstep with
  | registeredFlow flowId => exact h.state
  | registeredComponent component maxOwnedBytes => exact h.state
  | refused => exact h.state
  | exhausted => exact h.state
  | rolledBack => exact h.state
  | admitted alloc owner n flowId budgets buffer pools heap id table _ _ _ hins =>
      intro p hp
      rcases List.mem_cons.1 (hins.live.mem_iff.1 hp) with rfl | hold
      · rfl
      · exact h.state p hold
  | dropped handle caller entry table hget hcheck hrem =>
      exact fun p hp => h.state p (hrem.live.mem_iff.2 (List.mem_cons_of_mem _ hp))
  | charged => exact h.state
  | moved handle sender recipient entry budgets hget =>
      exact hput hget ⟨rfl, rfl, rfl, rfl⟩ (h.state _ (ResourceTable.get_eq_ok.1 hget))
  | borrowStarted handle borrower entry borrowed hget hok =>
      have hstate := h.state _ (ResourceTable.get_eq_ok.1 hget)
      rw [borrowStart_eq hstate (hcount entry hget)] at hok
      obtain rfl := Except.ok.inj hok
      exact hput hget ⟨rfl, rfl, rfl, rfl⟩ rfl
  | borrowEnded handle borrower entry returned hget hok =>
      have hstate := h.state _ (ResourceTable.get_eq_ok.1 hget)
      have hpos : 0 < entry.borrowCount := by
        by_contra hzero
        have hzero : entry.borrowCount = 0 := Nat.eq_zero_of_not_pos hzero
        simp only [hzero, if_true] at hstate
        rw [Torvyn.borrowEnd, hstate] at hok
        cases hok
      rw [borrowEnd_eq hstate hpos] at hok
      obtain rfl := Except.ok.inj hok
      exact hput hget ⟨rfl, rfl, rfl, rfl⟩ rfl
  | read => exact h.state
  | wrote handle caller offset data flowId entry hget =>
      exact hput hget ⟨rfl, rfl, rfl, rfl⟩ (h.state _ (ResourceTable.get_eq_ok.1 hget))
  | forceReclaimed component hash =>
      obtain ⟨removed, hswept⟩ := forceReclaim_swept (m := m) component hash
      exact fun p hp => h.state p (hswept.mem_of_mem hp)
  | flowReclaimed flowId hash =>
      obtain ⟨removed, hswept⟩ := reclaimFlow_swept (m := m) flowId hash
      exact fun p hp => h.state p (hswept.mem_of_mem hp)
  | flowReleased flowId hash =>
      obtain ⟨removed, hswept⟩ := reclaimFlow_swept (m := m) flowId hash
      exact fun p hp => h.state p (hswept.mem_of_mem hp)

theorem step {config : ResourceManagerConfig} (h : Refining slots trace m)
    (hslots : ∀ t b, b ∈ slots t → b.size = headerSize + (config.poolConfigs t).tier.capacity)
    (op : Op) (hfits : FitsPool config m op) (hcount : CountsBorrow m op) :
    Refining slots ((op, (m.step op).1) :: trace) (m.step op).2 where
  isolated := h.isolated.step hslots op hfits
  indexed := h.indexed.step op
  beyond := h.beyond_step op
  state := h.state_step op hcount

/-- The buffers in memory are those of the table with what their handles were given. -/
theorem store_eq (h : Refining slots trace m) : m.store = view (written trace) m.table := by
  funext handle
  rw [store, view]
  cases hget : m.table.get handle with
  | ok entry =>
      have hpayload := payloadOf_eq h.isolated (ResourceTable.get_eq_ok.1 hget)
      dsimp only
      rw [heldOf, ← hpayload]
  | error e => rfl

/-! ### One call -/

/-- A caller may use a buffer freely when the checks of the manager let the caller pass. -/
theorem freeFor_iff {contents : Contents} {handle : BufferHandle} {entry : ResourceEntry}
    {caller : OwnerId}
    (hstate : entry.state = if entry.borrowCount = 0 then .owned else .borrowed) :
    (heldOf contents (handle.resourceId, entry)).FreeFor caller ↔
      checkOwnedBy handle caller entry = .ok () := by
  rw [checkOwnedBy_eq_ok, hstate]
  constructor
  · rintro ⟨howner, hborrows⟩
    exact ⟨if_pos hborrows, howner, hborrows⟩
  · rintro ⟨-, howner, hborrows⟩
    exact ⟨howner, hborrows⟩

/-- What a call makes of the buffers, and what the manager makes of them. -/
def Simulates (trace : Trace) (m : ResourceManager) (op : Op) : Prop :=
  BufferStore.Step (view (written trace) m.table) op (m.step op).1
    (view (written ((op, (m.step op).1) :: trace)) (m.step op).2.table)

theorem simulates_allocate (alloc : Allocator) (owner : OwnerId) (n : ℕ) (flowId : FlowId) :
    Simulates trace m (.allocate alloc owner n flowId) := by
  have hcases := allocate_cases alloc owner n flowId m
  simp only [Simulates, ResourceManager.step]
  generalize m.allocate alloc owner n flowId = result at hcases ⊢
  cases hcases with
  | refused e => exact .allocateRefused alloc owner n flowId e
  | exhausted budgets e => exact .allocateRefused alloc owner n flowId e
  | rolledBack budgets e => exact .allocateRefused alloc owner n flowId e
  | admitted budgets buffer pools heap id table hn _ _ hins =>
      have hnone : view (written trace) m.table ⟨id⟩ = none := by
        rw [Option.eq_none_iff_forall_ne_some]
        intro b hview
        obtain ⟨entry, hmem, -⟩ := view_eq_some_iff.mp hview
        exact hins.fresh (List.mem_map_of_mem hmem)
      have hview := @view_inserted (written trace)
        (written ((.allocate alloc owner n flowId, .handle (.ok ⟨id⟩)) :: trace)) _ _ _ _ hins
        fun other hne => funext fun i => if_neg fun heq => hne heq.symm
      show BufferStore.Step _ _ _ (view (written
        ((.allocate alloc owner n flowId, .handle (.ok ⟨id⟩)) :: trace)) table)
      rw [hview]
      exact .allocate alloc owner n flowId ⟨id⟩ hn hnone

theorem simulates_release (h : Refining slots trace m) (handle : BufferHandle) (caller : OwnerId) :
    Simulates trace m (.release handle caller) := by
  have hcases := release_cases handle caller m
  simp only [Simulates, ResourceManager.step]
  generalize hresult : m.release handle caller = result at hcases ⊢
  cases hcases with
  | refused e =>
      refine .releaseRefused handle caller e fun buffer hview hfree => ?_
      obtain ⟨entry, hmem, rfl⟩ := view_eq_some_iff.mp hview
      have hok := release_succeeds (ResourceTable.get_eq_ok.2 hmem)
        ((freeFor_iff (h.state _ hmem)).1 hfree)
      rw [hresult] at hok
      cases hok
  | dropped entry table hget hcheck hrem =>
      show BufferStore.Step _ _ _ (view (written trace) table)
      rw [view_removed hrem]
      exact .release handle caller _ (view_of_get hget)
        ((freeFor_iff (h.state _ (ResourceTable.get_eq_ok.1 hget))).2 hcheck)

theorem simulates_transfer (h : Refining slots trace m) (handle : BufferHandle)
    (sender recipient : OwnerId) :
    Simulates trace m (.transferOwnership handle sender recipient) := by
  have hcases := transfer_cases handle sender recipient m
  simp only [Simulates, ResourceManager.step]
  generalize hresult : m.transferOwnership handle sender recipient = result at hcases ⊢
  have hrefused : ∀ e, result.1 = .error e → ∀ buffer,
      view (written trace) m.table handle = some buffer → buffer.FreeFor sender →
        ∃ component, recipient = .component component := by
    intro e he buffer hview hfree
    obtain ⟨entry, hmem, rfl⟩ := view_eq_some_iff.mp hview
    by_contra hnone
    -- only components have budgets
    have hbudgets : m.budgets.reserveFor recipient entry.payloadCapacity = .ok m.budgets := by
      cases recipient with
      | component component => exact absurd ⟨component, rfl⟩ hnone
      | host => rfl
      | transit => rfl
    have hok := transfer_succeeds (ResourceTable.get_eq_ok.2 hmem) hbudgets
      ((freeFor_iff (h.state _ hmem)).1 hfree)
    rw [hresult, he] at hok
    cases hok
  cases hcases with
  | refused e => exact .transferRefused handle sender recipient e (hrefused e rfl)
  | charged entry budgets e =>
      exact .transferRefused handle sender recipient e (hrefused e rfl)
  | moved entry budgets hget _ hcheck =>
      have hview := @view_replaced (written trace) (written trace) _ _ _ _ _
        (.of_put hget { entry with owner := recipient } rfl) fun _ _ => rfl
      show BufferStore.Step _ _ _ (view (written trace) (m.table.put handle _))
      rw [hview]
      exact .transfer handle sender recipient _ (view_of_get hget)
        ((freeFor_iff (h.state _ (ResourceTable.get_eq_ok.1 hget))).2 hcheck)

theorem simulates_borrowStart (h : Refining slots trace m) (handle : BufferHandle)
    (borrower : ComponentId) (hcount : CountsBorrow m (.borrowStart handle borrower)) :
    Simulates trace m (.borrowStart handle borrower) := by
  simp only [Simulates, ResourceManager.step, ResourceManager.borrowStart, transition]
  cases hget : m.table.get handle with
  | error e => exact .borrowStartRefused handle borrower e (view_of_error hget)
  | ok entry =>
      have hstate := h.state _ (ResourceTable.get_eq_ok.1 hget)
      dsimp only
      rw [borrowStart_eq hstate (hcount entry hget)]
      have hview := @view_replaced (written trace) (written trace) _ _ _ _ _
        (.of_put hget { entry with borrowCount := entry.borrowCount + 1, state := .borrowed } rfl)
        fun _ _ => rfl
      show BufferStore.Step _ _ _ (view (written trace) (m.table.put handle _))
      rw [hview]
      exact .borrowStart handle borrower _ (view_of_get hget)

theorem simulates_borrowEnd (h : Refining slots trace m) (handle : BufferHandle)
    (borrower : ComponentId) : Simulates trace m (.borrowEnd handle borrower) := by
  simp only [Simulates, ResourceManager.step, ResourceManager.borrowEnd, transition]
  cases hget : m.table.get handle with
  | error e =>
      refine .borrowEndRefused handle borrower e fun buffer hview => ?_
      rw [view_of_error hget] at hview
      cases hview
  | ok entry =>
      have hstate := h.state _ (ResourceTable.get_eq_ok.1 hget)
      dsimp only
      by_cases hpos : 0 < entry.borrowCount
      · rw [borrowEnd_eq hstate hpos]
        have hview := @view_replaced (written trace) (written trace) _ _ _ _ _
          (.of_put hget { entry with
            borrowCount := entry.borrowCount - 1
            state := if entry.borrowCount - 1 = 0 then .owned else .borrowed } rfl)
          fun _ _ => rfl
        show BufferStore.Step _ _ _ (view (written trace) (m.table.put handle _))
        rw [hview]
        exact .borrowEnd handle borrower _ (view_of_get hget) hpos
      · have hzero : entry.borrowCount = 0 := Nat.eq_zero_of_not_pos hpos
        rw [if_pos hzero] at hstate
        have hend : Torvyn.borrowEnd handle entry = .error (.staleHandle handle.resourceId) := by
          rw [Torvyn.borrowEnd, hstate]
        rw [hend]
        refine .borrowEndRefused handle borrower _ fun buffer hview => ?_
        rw [view_of_get hget] at hview
        obtain rfl := Option.some.inj hview
        exact hzero

/-- Reading the memory of an entry reads its payload. -/
theorem readPayload_eq {contents : Contents} (h : IsolatedManager slots contents m)
    {handle : BufferHandle} {entry : ResourceEntry} (hget : m.table.get handle = .ok entry)
    {offset length : ℕ} (hle : offset + length ≤ entry.payloadLen) :
    Torvyn.readPayload entry.bufferPtr offset length m.heap =
      ((heldOf contents (handle.resourceId, entry)).payload.drop offset).take length := by
  have hlen := (h.stored.entry_of_get hget).len_le
  apply List.ext_getElem
  · simp only [heldOf, Torvyn.readPayload, Heap.load, List.length_map, List.length_range,
      List.length_take, List.length_drop]
    omega
  · intro i hi hi'
    have hi : i < length := by
      simpa [Torvyn.readPayload, Heap.load] using hi
    have hbyte := h.content _ (ResourceTable.get_eq_ok.1 hget) (offset + i)
      (show offset + i < entry.payloadCapacity by omega)
    simp only [heldOf, Torvyn.readPayload, Heap.load, List.getElem_map, List.getElem_range,
      List.getElem_take, List.getElem_drop]
    rw [← hbyte]
    congr 1
    show entry.bufferPtr + headerSize + offset + i = entry.bufferPtr + headerSize + (offset + i)
    omega

theorem simulates_read (h : Refining slots trace m) (handle : BufferHandle) (caller : OwnerId)
    (offset length : ℕ) (flowId : FlowId) :
    Simulates trace m (.readPayload handle caller offset length flowId) := by
  simp only [Simulates, ResourceManager.step, ResourceManager.readPayload]
  cases hget : m.table.get handle with
  | error e =>
      refine .readRefused handle caller offset length flowId e fun buffer hview => ?_
      rw [view_of_error hget] at hview
      cases hview
  | ok entry =>
      dsimp only
      split_ifs with hle
      · refine .readRefused handle caller offset length flowId _ fun buffer hview => ?_
        rw [view_of_get hget] at hview
        obtain rfl := Option.some.inj hview
        simpa [heldOf] using hle
      · have hle : offset + length ≤ entry.payloadLen := Nat.le_of_not_lt hle
        rw [readPayload_eq h.isolated hget hle]
        exact .read handle caller offset length flowId _ (view_of_get hget)
          (by simpa [heldOf] using hle)

/-- A function that is zero from `n` on fills a prefix with its zeros. -/
theorem takeD_map_range {f : ℕ → UInt8} {n : ℕ} (hbeyond : ∀ i, n ≤ i → f i = 0) (offset : ℕ) :
    ((List.range n).map f).takeD offset 0 = (List.range offset).map f := by
  induction offset generalizing f n with
  | zero => rfl
  | succ offset ih =>
      rw [List.takeD_succ, List.range_succ_eq_map, List.map_cons, List.map_map]
      cases n with
      | zero =>
          have htail := @ih (f ∘ Nat.succ) 0 fun i _ => hbeyond (i + 1) (Nat.zero_le _)
          rw [← htail, List.range_zero, List.map_nil, hbeyond 0 (Nat.zero_le _)]
          rfl
      | succ n =>
          have htail := @ih (f ∘ Nat.succ) n fun i hi => hbeyond (i + 1) (Nat.succ_le_succ hi)
          rw [List.range_succ_eq_map, List.map_cons, List.map_map, ← htail]
          rfl

/-- A write into the values of such a function. -/
theorem overwrite_map_range {f : ℕ → UInt8} {n : ℕ} (hbeyond : ∀ i, n ≤ i → f i = 0) (offset : ℕ)
    (data : List UInt8) :
    ((List.range (max n (offset + data.length))).map fun i =>
      if offset ≤ i then (data[i - offset]?).getD (f i) else f i) =
    ((List.range n).map f).takeD offset 0 ++ data ++
      ((List.range n).map f).drop (offset + data.length) := by
  rw [takeD_map_range hbeyond]
  apply List.ext_getElem
  · simp only [List.length_map, List.length_range, List.length_append, List.length_drop]
    omega
  · intro i hi hi'
    simp only [List.length_map, List.length_range] at hi
    simp only [List.getElem_map, List.getElem_range, List.getElem_append, List.length_map,
      List.length_range, List.length_append, List.getElem_drop]
    split_ifs <;> grind

/-- What a write leaves of the contents of a handle is the payload after the write. -/
theorem payload_write {contents : Contents} {handle : BufferHandle} {entry : ResourceEntry}
    (hbeyond : ∀ i, entry.payloadLen ≤ i → contents handle i = 0) (offset : ℕ)
    (data : List UInt8) :
    heldOf (Isolated.overwrite contents handle offset data)
      (handle.resourceId, writtenEntry entry (offset + data.length)) =
    (heldOf contents (handle.resourceId, entry)).write offset data := by
  have hpayload := overwrite_map_range hbeyond offset data
  have hself : Isolated.overwrite contents handle offset data handle = fun i =>
      if offset ≤ i then (data[i - offset]?).getD (contents handle i) else contents handle i :=
    Function.update_self _ _ _
  rw [← hself] at hpayload
  rw [HeldBuffer.write, heldOf, heldOf]
  dsimp only
  rw [← hpayload]
  rfl

theorem simulates_write (h : Refining slots trace m) (handle : BufferHandle) (caller : OwnerId)
    (offset : ℕ) (data : List UInt8) (flowId : FlowId) :
    Simulates trace m (.writePayload handle caller offset data flowId) := by
  simp only [Simulates, ResourceManager.step]
  rcases write_cases handle caller offset data flowId m with
    ⟨e, heq⟩ | ⟨entry, hget, howner, hstate, hle, heq⟩
  · rw [heq]
    refine .writeRefused handle caller offset data flowId e fun buffer hview => ?_
    rintro ⟨hfree, hle⟩
    obtain ⟨entry, hmem, rfl⟩ := view_eq_some_iff.mp hview
    have hget := ResourceTable.get_eq_ok.2 hmem
    obtain ⟨hstate, howner, -⟩ := checkOwnedBy_eq_ok.1 ((freeFor_iff (h.state _ hmem)).1 hfree)
    have hle : offset + data.length ≤ entry.payloadCapacity := hle
    have hok : (m.writePayload handle caller offset data flowId).1 = .ok () := by
      rw [ResourceManager.writePayload, hget]
      dsimp only
      rw [if_neg (not_not.2 howner), if_neg (not_not.2 hstate), if_neg (Nat.not_lt.2 hle)]
    rw [heq] at hok
    cases hok
  · rw [heq]
    have hentry := h.state _ (ResourceTable.get_eq_ok.1 hget)
    have hzero : entry.borrowCount = 0 := by
      by_contra hne
      rw [hstate, if_neg hne] at hentry
      cases hentry
    have hcontents : written ((.writePayload handle caller offset data flowId,
        .done (.ok ())) :: trace) = Isolated.overwrite (written trace) handle offset data := by
      funext other i
      show (if handle = other ∧ offset ≤ i then _ else _) = _
      by_cases hother : handle = other
      · subst hother
        simp only [true_and, Isolated.overwrite, Function.update_self, written]
      · rw [if_neg fun hand => hother hand.1, Isolated.overwrite,
          Function.update_of_ne (Ne.symm hother)]
        rfl
    have hview := @view_replaced (written trace)
      (Isolated.overwrite (written trace) handle offset data) _ _ _ _ _
      (.of_put hget (writtenEntry entry (offset + data.length)) rfl)
      fun other hne => Function.update_of_ne hne _ _
    rw [payload_write (h.beyond _ (ResourceTable.get_eq_ok.1 hget))] at hview
    show BufferStore.Step _ _ _ (view (written ((.writePayload handle caller offset data flowId,
      .done (.ok ())) :: trace)) (m.table.put handle _))
    rw [hcontents, hview]
    exact .write handle caller offset data flowId _ (view_of_get hget) ⟨howner, hzero⟩ hle

/-- What a sweep reports is what the buffers were that it removes. -/
theorem simulates_forceReclaim (h : Refining slots trace m) (component : ComponentId)
    (hash : HashOrder) : Simulates trace m (.forceReclaim component hash) := by
  obtain ⟨removed, hswept, hremoved, hreports, -⟩ := h.indexed.forceReclaim_spec component hash
  have hkind : ∀ p : ResourceId × ResourceEntry,
      (heldOf (written trace) p).owner = .component component ↔ p.2.owner = .component component :=
    fun _ => Iff.rfl
  refine .forceReclaim component hash _ (m.forceReclaim component hash).1 _
    (lists_of_swept (fun entry => entry.owner = .component component) hswept hremoved hkind) ?_
    (without_of_swept (fun entry => entry.owner = .component component) hswept hremoved hkind)
  rw [hreports, List.map_map, List.map_map]
  rfl

theorem foldl_tally_eq (removed : List (ResourceId × ResourceEntry)) (stats : FlowResourceStats) :
    let after := removed.foldl tally stats
    after.returnedToPool + after.deallocated =
        stats.returnedToPool + stats.deallocated + removed.length ∧
      after.totalBytesReleased =
        stats.totalBytesReleased + (removed.map fun p => p.2.payloadCapacity).sum ∧
      after.borrowsCleared = stats.borrowsCleared + (removed.map fun p => p.2.borrowCount).sum := by
  induction removed generalizing stats with
  | nil => exact ⟨rfl, rfl, rfl⟩
  | cons p removed ih =>
      obtain ⟨hcount, hbytes, hborrows⟩ := ih (tally stats p)
      dsimp only at hcount hbytes hborrows ⊢
      rw [List.foldl_cons, hcount, hbytes, hborrows, List.map_cons, List.map_cons,
        List.sum_cons, List.sum_cons, List.length_cons]
      refine ⟨?_, ?_, ?_⟩
      · cases hfallback : p.2.isFallback <;> simp only [tally, hfallback] <;> simp <;> omega
      · show stats.totalBytesReleased + _ + _ = _
        omega
      · show stats.borrowsCleared + _ + _ = _
        omega

/-- A reclaim of a flow, with and without its entry of the copy ledger. -/
theorem simulates_reclaimFlow (h : Refining slots trace m) {op : Op} (flowId : FlowId)
    (hash : HashOrder)
    (hop : op = .reclaimFlowBuffers flowId hash ∨ op = .releaseFlowResources flowId hash) :
    Simulates trace m op := by
  obtain ⟨removed, hswept, hremoved, hstats, -⟩ := h.indexed.reclaimFlow_spec flowId hash
  have hkind : ∀ p : ResourceId × ResourceEntry,
      (heldOf (written trace) p).flowId = flowId ↔ p.2.flowId = flowId := fun _ => Iff.rfl
  obtain ⟨hcount, hbytes, hborrows⟩ := foldl_tally_eq removed {}
  rw [← hstats] at hcount hbytes hborrows
  have hstep := BufferStore.Step.reclaimFlow op flowId _ (m.reclaimFlowBuffers flowId hash).1 _
    ⟨hash, hop⟩
    (lists_of_swept (fun entry => entry.flowId = flowId) hswept hremoved hkind)
    (by rw [List.length_map, hcount]; simp)
    (by rw [List.map_map, hbytes]; simp [Function.comp_def, heldOf])
    (by rw [List.map_map, hborrows]; simp [Function.comp_def, heldOf])
    (without_of_swept (fun entry => entry.flowId = flowId) hswept hremoved hkind)
  rcases hop with rfl | rfl
  · exact hstep
  · exact hstep

/-- Every call does to the buffers what the store says. -/
theorem simulates (h : Refining slots trace m) (op : Op) (hcount : CountsBorrow m op) :
    Simulates trace m op := by
  cases op with
  | registerFlow flowId => exact .registerFlow flowId
  | registerComponent component maxOwnedBytes =>
      exact .registerComponent component maxOwnedBytes
  | allocate alloc owner n flowId => exact simulates_allocate alloc owner n flowId
  | release handle caller => exact h.simulates_release handle caller
  | transferOwnership handle sender recipient => exact h.simulates_transfer handle sender recipient
  | borrowStart handle borrower => exact h.simulates_borrowStart handle borrower hcount
  | borrowEnd handle borrower => exact h.simulates_borrowEnd handle borrower
  | readPayload handle caller offset length flowId =>
      exact h.simulates_read handle caller offset length flowId
  | writePayload handle caller offset data flowId =>
      exact h.simulates_write handle caller offset data flowId
  | forceReclaim component hash => exact h.simulates_forceReclaim component hash
  | reclaimFlowBuffers flowId hash => exact h.simulates_reclaimFlow flowId hash (.inl rfl)
  | releaseFlowResources flowId hash => exact h.simulates_reclaimFlow flowId hash (.inr rfl)

end Refining

end ResourceManager

namespace StartedManager

open ResourceManager

/-- The calls of a run: a pooled request fits its pool, and borrows can be counted. -/
def Serves (config : ResourceManagerConfig) (m : ResourceManager) (op : Op) : Prop :=
  FitsPool config m op ∧ CountsBorrow m op

/-- **The manager refines the store.**  The calls of every sequence, with the replies that the
manager gives, are a run of the store, and it ends with the buffers that the manager keeps. -/
theorem store_refined (s : StartedManager) {ops : List Op}
    (hops : Allowed (Serves s.config) s.manager ops) :
    BufferStore.Runs (s.trace ops) (s.after ops).store := by
  have hstart : Refining s.slots [] s.manager ∧
      BufferStore.Runs [] (view (ResourceManager.written []) s.manager.table) := by
    have hnone : s.manager.table.iter = [] := s.iter_manager
    have hempty : view (ResourceManager.written []) s.manager.table = fun _ => none := by
      funext handle
      rw [Option.eq_none_iff_forall_ne_some]
      intro buffer hview
      obtain ⟨entry, hmem, -⟩ := view_eq_some_iff.mp hview
      rw [hnone] at hmem
      cases hmem
    refine ⟨⟨@isolated_after s [] trivial, s.indexed_after [], by simp [hnone],
      by simp [hnone]⟩, ?_⟩
    rw [hempty]
    exact .start
  have hrun := run_invariant
    (P := fun trace m => Refining s.slots trace m ∧
      BufferStore.Runs trace (view (ResourceManager.written trace) m.table))
    (fun trace m op hop h => ⟨h.1.step (fun t b hb => s.size_of_mem_slots hb) op hop.1 hop.2,
      h.2.call (h.1.simulates op hop.2)⟩) hops hstart
  rw [after, hrun.1.store_eq]
  exact hrun.2

/-- The run that uses a buffer again. -/
theorem store_refined_reuse :
    Allowed (Serves startedSmallPool.config) startedSmallPool.manager reuse ∧
    (startedSmallPool.after reuse).store ⟨⟨0, 2⟩⟩ = some ⟨.host, ⟨0⟩, 0, 256, [0, 0, 9]⟩ ∧
    BufferStore.Runs (startedSmallPool.trace reuse) (startedSmallPool.after reuse).store := by
  have hops : Allowed (Serves startedSmallPool.config) startedSmallPool.manager reuse :=
    ⟨⟨.inr (by decide), trivial⟩, ⟨trivial, trivial⟩, ⟨trivial, trivial⟩,
      ⟨.inr (by decide), trivial⟩, ⟨trivial, trivial⟩, trivial⟩
  exact ⟨hops, by rfl, startedSmallPool.store_refined hops⟩

end StartedManager

end Torvyn
