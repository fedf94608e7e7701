/-
# Claims on buffers

A wrapper is a claim: it says that its buffer is live under its handle and whose it is. The
claims of all holders are backed by the resource table when they are true and no buffer is
claimed twice. Here is what the operations on the table do to claims, and what a call of a
host function does to the wrappers and to the table.
-/
import Torvyn.Data.Exclusive
import Torvyn.Engine.HostState
import Torvyn.Resources.Effects

namespace Torvyn.Engine

open ResourceManager

/-- The claim that a buffer is live and belongs to an owner. -/
structure Claim where
  handle : BufferHandle
  owner : OwnerId
  deriving DecidableEq, Repr

/-- The resources of a table are the same as before. -/
structure Unchanged (table table' : ResourceTable) : Prop where
  live : table'.iter.Perm table.iter
  wellFormed : table.WellFormed → table'.WellFormed

theorem Unchanged.refl (table : ResourceTable) : Unchanged table table :=
  ⟨.refl _, id⟩

/-- The buffer of a claim is live under its handle, owned by its owner and not borrowed. -/
structure OwnedEntry (c : Claim) (entry : ResourceEntry) : Prop where
  state : entry.state = .owned
  owner : entry.owner = c.owner
  unborrowed : entry.borrowCount = 0

/-- A claim is true in a table. -/
def Owned (table : ResourceTable) (c : Claim) : Prop :=
  ∃ entry, (c.handle.resourceId, entry) ∈ table.iter ∧ OwnedEntry c entry

/-- An owned buffer passes the checks of a release and of a transfer. -/
theorem OwnedEntry.check {c : Claim} {entry : ResourceEntry} (h : OwnedEntry c entry) :
    checkOwnedBy c.handle c.owner entry = .ok () := by
  simp [checkOwnedBy, h.state, h.owner, h.unborrowed]

/-! ## Backed claims -/

/-- All claims are true, and no buffer is claimed by two holders. -/
structure Backed {κ : Type*} (claims : κ → Option Claim) (table : ResourceTable) : Prop where
  wellFormed : table.WellFormed
  exclusive : Exclusive Claim.handle claims
  owned : ∀ ⦃k c⦄, claims k = some c → Owned table c

/-- Nobody claims the buffer of a handle. -/
abbrev Unclaimed {κ : Type*} (claims : κ → Option Claim) (handle : BufferHandle) : Prop :=
  Unheld Claim.handle claims handle

namespace Backed

variable {κ : Type*} {claims : κ → Option Claim} {table table' : ResourceTable} {k : κ}
  {c : Claim} {handle : BufferHandle} {entry entry' : ResourceEntry}

theorem unchanged (h : Backed claims table) (hsame : Unchanged table table') :
    Backed claims table' where
  wellFormed := hsame.wellFormed h.wellFormed
  exclusive := h.exclusive
  owned k c hk := by
    obtain ⟨entry, hmem, hentry⟩ := h.owned hk
    exact ⟨entry, hsame.live.mem_iff.2 hmem, hentry⟩

/-- A new resource does not disturb the claims. -/
theorem inserted (h : Backed claims table)
    (hins : table.Inserted table' handle.resourceId entry) : Backed claims table' where
  wellFormed := hins.wellFormed h.wellFormed
  exclusive := h.exclusive
  owned k c hk := by
    obtain ⟨entry, hmem, hentry⟩ := h.owned hk
    exact ⟨entry, hins.live.mem_iff.2 (List.mem_cons_of_mem _ hmem), hentry⟩

/-- A buffer that is new is claimed by nobody. -/
theorem unclaimed_inserted (h : Backed claims table)
    (hins : table.Inserted table' handle.resourceId entry) : Unclaimed claims handle := by
  intro k c hk hname
  obtain ⟨entry, hmem, -⟩ := h.owned hk
  apply hins.fresh
  rw [← hname]
  exact List.mem_map_of_mem hmem

/-- A buffer that nobody claims may go. -/
theorem removed (h : Backed claims table) (hrem : table.Removed table' handle entry)
    (hfree : Unclaimed claims handle) : Backed claims table' where
  wellFormed := hrem.wellFormed h.wellFormed
  exclusive := h.exclusive
  owned k c hk := by
    obtain ⟨entry, hmem, hentry⟩ := h.owned hk
    exact ⟨entry, hrem.mem_of_ne hmem fun heq => hfree hk (congrArg BufferHandle.mk heq), hentry⟩

/-- An entry may change what no claim speaks of; one that nobody claims may change in any
way. -/
theorem replaced (h : Backed claims table) (hrep : table.Replaced table' handle entry entry')
    (hkeep : Unclaimed claims handle ∨ ∀ c, OwnedEntry c entry → OwnedEntry c entry') :
    Backed claims table' where
  wellFormed := hrep.wellFormed h.wellFormed
  exclusive := h.exclusive
  owned k c hk := by
    obtain ⟨found, hmem, hentry⟩ := h.owned hk
    by_cases heq : c.handle.resourceId = handle.resourceId
    · have hname : c.handle = handle := congrArg BufferHandle.mk heq
      rcases hkeep with hfree | hkeep
      · exact absurd hname (hfree hk)
      · obtain ⟨rest, hlive, -⟩ := hrep.live
        have hold : (handle.resourceId, entry) ∈ table.iter :=
          hlive.mem_iff.2 List.mem_cons_self
        have hpair := List.inj_on_of_nodup_map table.nodup_iter hmem hold heq
        obtain rfl : found = entry := congrArg Prod.snd hpair
        refine ⟨entry', ?_, hkeep c hentry⟩
        rw [heq]
        exact hrep.mem
    · exact ⟨found, hrep.mem_of_ne hmem heq, hentry⟩

variable [DecidableEq κ]

/-- A holder may lose its claim. -/
theorem take (h : Backed claims table) (k : κ) :
    Backed (Function.update claims k none) table where
  wellFormed := h.wellFormed
  exclusive := h.exclusive.take k
  owned _ _ hk := h.owned (Exclusive.of_update_none hk).2

/-- A true claim on a buffer that nobody claims may be given to anyone. -/
theorem give (h : Backed claims table) (hfree : Unclaimed claims c.handle) (howned : Owned table c)
    (k : κ) : Backed (Function.update claims k (some c)) table where
  wellFormed := h.wellFormed
  exclusive := h.exclusive.give hfree k
  owned k' c' hk' := by
    by_cases hk : k' = k
    · rw [hk, Function.update_self] at hk'
      exact Option.some.inj hk' ▸ howned
    · rw [Function.update_of_ne hk] at hk'
      exact h.owned hk'

/-- A claim may be moved to another holder. -/
theorem move (h : Backed claims table) (hk : claims k = some c) (k' : κ) :
    Backed (Function.update (Function.update claims k none) k' (some c)) table :=
  (h.take k).give (h.exclusive.unheld_take hk) (h.owned hk) k'

end Backed

/-! ## What a host function does -/

/-- The entry of a buffer that a store's component has allocated. -/
structure Allotted (h : HostState) (entry : ResourceEntry) : Prop where
  state : entry.state = .owned
  owner : entry.owner = h.componentOwner
  unborrowed : entry.borrowCount = 0
  flowId : entry.flowId = h.flowId

/-- A wrapper whose buffer has been frozen. -/
def Wrapper.spent (wrapper : Wrapper) : Wrapper := { wrapper with handle := frozenSentinel }

/-- What becomes of a store's state in a call of a host function. -/
inductive Called (h : HostState) : HostState → Prop where
  /-- no wrapper and no resource changes -/
  | quiet (m : ResourceManager) : Unchanged h.resources.table m.table →
      Called h { h with resources := m }
  | wrote (rep : ℕ) (wrapper : Wrapper) (entry : ResourceEntry) (newEnd : ℕ)
      (m : ResourceManager) : h.table rep = some wrapper → wrapper.kind = .mutableBuffer →
      h.resources.table.Replaced m.table wrapper.handle entry (writtenEntry entry newEnd) →
      Called h { h with resources := m }
  /-- a buffer is allocated for which the table has no place -/
  | lost (handle : BufferHandle) (entry : ResourceEntry) (m : ResourceManager) :
      Allotted h entry → h.resources.table.Inserted m.table handle.resourceId entry →
      Called h { h with resources := m }
  | gained (handle : BufferHandle) (entry : ResourceEntry) (m : ResourceManager) (rep : ℕ) :
      Allotted h entry → h.resources.table.Inserted m.table handle.resourceId entry →
      h.table rep = none →
      Called h { h with
        table := Function.update h.table rep (some ⟨.mutableBuffer, handle, h.componentOwner⟩)
        resources := m }
  /-- a buffer is frozen for whose new wrapper the table has no place -/
  | unwrapped (rep : ℕ) (wrapper : Wrapper) : h.table rep = some wrapper →
      wrapper.kind = .mutableBuffer →
      Called h { h with table := Function.update h.table rep (some wrapper.spent) }
  | froze (rep : ℕ) (wrapper : Wrapper) (frozen : ℕ) : h.table rep = some wrapper →
      wrapper.kind = .mutableBuffer →
      Function.update h.table rep (some wrapper.spent) frozen = none →
      Called h { h with
        table := Function.update (Function.update h.table rep (some wrapper.spent)) frozen
          (some ⟨.buffer, wrapper.handle, wrapper.owner⟩) }
  | dropped (rep : ℕ) (wrapper : Wrapper) (entry : ResourceEntry) (m : ResourceManager) :
      h.table rep = some wrapper → wrapper.handle ≠ frozenSentinel →
      h.resources.table.Removed m.table wrapper.handle entry →
      Called h { h with table := Function.update h.table rep none, resources := m }
  /-- a wrapper is dropped that stands for no buffer of its own -/
  | forgot (rep : ℕ) (wrapper : Wrapper) : h.table rep = some wrapper →
      (wrapper.handle = frozenSentinel ∨
        ∃ e, h.resources.release wrapper.handle wrapper.owner = (.error e, h.resources)) →
      Called h { h with table := Function.update h.table rep none }

namespace Called

variable {h : HostState} {wt : Wasmtime}

/-- A call that is refused changes nothing. -/
theorem refused (h : HostState) : Called h h :=
  .quiet h.resources (.refl _)

/-- Reading changes the ledger only. -/
theorem readRange_table (wrapper : Wrapper) (offset len : ℕ) (h : HostState) :
    ∃ m : ResourceManager, m.table = h.resources.table ∧
      (h.readRange wrapper offset len).2 = { h with resources := m } := by
  unfold HostState.readRange
  split_ifs
  · exact ⟨h.resources, rfl, rfl⟩
  · rcases read_cases wrapper.handle wrapper.owner offset len h.flowId h.resources with
      ⟨e, heq⟩ | ⟨entry, -, -, heq⟩
    · exact ⟨h.resources, rfl, by simp only [heq]⟩
    · refine ⟨{ h.resources with
        ledger := h.resources.ledger.recordCopy h.flowId len .hostToComponent }, rfl, ?_⟩
      simp only [heq]

theorem readRange (wrapper : Wrapper) (offset len : ℕ) :
    Called h (h.readRange wrapper offset len).2 := by
  obtain ⟨m, htable, heq⟩ := readRange_table wrapper offset len h
  rw [heq]
  exact .quiet m (htable ▸ .refl _)

theorem writeAt {rep : ℕ} {wrapper : Wrapper} (hrep : h.table rep = some wrapper)
    (hkind : wrapper.kind = .mutableBuffer) (offset : ℕ) (bytes : List UInt8) :
    Called h (h.writeAt wrapper offset bytes).2 := by
  unfold HostState.writeAt
  rcases write_cases wrapper.handle wrapper.owner offset bytes h.flowId h.resources with
    ⟨e, heq⟩ | ⟨entry, hget, -, -, -, heq⟩
  · simp only [heq]
    exact .refused h
  · simp only [heq]
    exact .wrote rep wrapper entry (offset + bytes.length) _ hrep hkind (.of_put hget _ rfl)

/-- Wrapping a new buffer, in a manager that has the buffer already. -/
theorem wrap {handle : BufferHandle} {entry : ResourceEntry} {m : ResourceManager}
    (hentry : Allotted h entry) (hins : h.resources.table.Inserted m.table handle.resourceId entry) :
    Called h (HostState.wrap wt handle { h with resources := m }).2 := by
  unfold HostState.wrap WrapperTable.push
  simp only
  cases hplace : wt.place h.table with
  | none => exact .lost handle entry m hentry hins
  | some rep => exact .gained handle entry m rep hentry hins (wt.place_free _ _ hplace)

/-- A fresh entry is one that the component has allocated. -/
theorem allotted_fresh (n : ℕ) (buffer : Buffer) (generation : ℕ) :
    Allotted h (freshEntry h.componentOwner n h.flowId buffer generation) :=
  ⟨rfl, rfl, rfl, rfl⟩

theorem allocate (alloc : Allocator) (capacityHint : ℕ) :
    Called h (h.allocate wt alloc capacityHint).2 := by
  unfold HostState.allocate
  split_ifs
  · exact .refused h
  · have hcases := allocate_cases alloc h.componentOwner capacityHint h.flowId h.resources
    generalize h.resources.allocate alloc h.componentOwner capacityHint h.flowId = result at hcases ⊢
    cases hcases with
    | refused e => exact .refused h
    | exhausted budgets e => exact .quiet _ (.refl _)
    | rolledBack budgets e buffer pools heap => exact .quiet _ (.refl _)
    | admitted budgets buffer pools heap id table _ _ _ hins =>
      exact wrap (allotted_fresh _ _ _) hins

/-- Writing to a new resource, and giving it back, before it is wrapped. -/
theorem inserted_put {table table₁ : ResourceTable} {handle : BufferHandle}
    {entry entry' : ResourceEntry} (hins : table.Inserted table₁ handle.resourceId entry)
    {table₂ : ResourceTable} (hrep : table₁.Replaced table₂ handle entry entry') :
    table.Inserted table₂ handle.resourceId entry' where
  live := by
    obtain ⟨rest, hlive, hlive'⟩ := hrep.live
    have hrest : rest.Perm table.iter := (List.perm_cons _).1 (hlive.symm.trans hins.live)
    exact hlive'.trans (hrest.cons _)
  wellFormed hwf := hrep.wellFormed (hins.wellFormed hwf)
  fresh := hins.fresh

theorem inserted_remove {table table₁ table₂ : ResourceTable} {handle : BufferHandle}
    {entry entry' : ResourceEntry} (hins : table.Inserted table₁ handle.resourceId entry)
    (hrem : table₁.Removed table₂ handle entry') : Unchanged table table₂ where
  live := by
    have hmem : (handle.resourceId, entry') ∈ table₁.iter :=
      hrem.live.mem_iff.2 List.mem_cons_self
    have hmem' : (handle.resourceId, entry) ∈ table₁.iter :=
      hins.live.mem_iff.2 List.mem_cons_self
    have hpair := List.inj_on_of_nodup_map table₁.nodup_iter hmem hmem' rfl
    obtain rfl : entry' = entry := congrArg Prod.snd hpair
    exact (List.perm_cons _).1 (hrem.live.symm.trans hins.live)
  wellFormed hwf := hrem.wellFormed (hins.wellFormed hwf)

theorem allocateCopy (alloc : Allocator) (bytes : List UInt8) (total : ℕ) {m₀ : ResourceManager}
    (htable : m₀.table = h.resources.table) :
    Called h (HostState.allocateCopy wt alloc bytes total { h with resources := m₀ }).2 := by
  unfold HostState.allocateCopy
  have howner : HostState.componentOwner { h with resources := m₀ } = h.componentOwner := rfl
  have hcases := allocate_cases alloc h.componentOwner (max total 1) h.flowId m₀
  simp only [howner]
  generalize m₀.allocate alloc h.componentOwner (max total 1) h.flowId = result at hcases ⊢
  cases hcases with
  | refused e => exact .quiet m₀ (htable ▸ .refl _)
  | exhausted budgets e => exact .quiet _ (htable ▸ .refl _)
  | rolledBack budgets e buffer pools heap => exact .quiet _ (htable ▸ .refl _)
  | admitted budgets buffer pools heap id table _ _ _ hins =>
    rw [htable] at hins
    simp only
    split_ifs
    · exact wrap (allotted_fresh _ _ _) hins
    · generalize hm : ({ m₀ with
          table := table
          componentResources := Index.add m₀.componentResources h.componentOwner.componentId id
          flowResources := Index.add m₀.flowResources (some h.flowId) id
          pools := pools
          heap := heap
          budgets := budgets } : ResourceManager) = m
      have hins : h.resources.table.Inserted m.table id
          (freshEntry h.componentOwner (max total 1) h.flowId buffer id.generation) := by
        rw [← hm]
        exact hins
      rcases write_cases ⟨id⟩ h.componentOwner 0 bytes h.flowId m with
        ⟨e, heq⟩ | ⟨entry, hget, -, -, -, heq⟩
      · simp only [heq]
        have hreleased := release_cases ⟨id⟩ h.componentOwner m
        generalize m.release ⟨id⟩ h.componentOwner = released at hreleased ⊢
        cases hreleased with
        | refused e' => exact .lost ⟨id⟩ _ m (allotted_fresh _ _ _) hins
        | dropped entry table' _ _ hrem =>
          exact .quiet _ (inserted_remove hins hrem)
      · simp only [heq]
        have hmem : (id, freshEntry h.componentOwner (max total 1) h.flowId buffer
            id.generation) ∈ m.table.iter := hins.live.mem_iff.2 List.mem_cons_self
        obtain rfl := Except.ok.inj (hget.symm.trans (ResourceTable.get_eq_ok.2 hmem))
        have hput := inserted_put hins (ResourceTable.Replaced.of_put hget
          (writtenEntry (freshEntry h.componentOwner (max total 1) h.flowId buffer id.generation)
            (0 + bytes.length)) rfl)
        exact wrap ⟨rfl, rfl, rfl, rfl⟩ hput

theorem freeze (rep : ℕ) : Called h (h.freeze wt rep).2 := by
  unfold HostState.freeze
  split
  · exact .refused h
  · rename_i wrapper hget
    obtain ⟨hrep, hkind⟩ := WrapperTable.get_eq_ok.1 hget
    unfold WrapperTable.push
    simp only
    cases hplace : wt.place (Function.update h.table rep
        (some { wrapper with handle := frozenSentinel })) with
    | none => exact .unwrapped rep wrapper hrep hkind
    | some frozen => exact .froze rep wrapper frozen hrep hkind (wt.place_free _ _ hplace)

theorem drop (kind : WrapperKind) (rep : ℕ) : Called h (h.drop kind rep).2 := by
  unfold HostState.drop WrapperTable.delete
  cases hget : h.table.get kind rep with
  | error e => exact .refused h
  | ok wrapper =>
    obtain ⟨hrep, -⟩ := WrapperTable.get_eq_ok.1 hget
    simp only
    split_ifs with hsentinel
    · exact .forgot rep wrapper hrep (.inl hsentinel)
    · have hcases := release_cases wrapper.handle wrapper.owner h.resources
      cases hresult : h.resources.release wrapper.handle wrapper.owner with
      | mk result m =>
        rw [hresult] at hcases
        cases hcases with
        | refused e => exact .forgot rep wrapper hrep (.inr ⟨e, hresult⟩)
        | dropped entry table _ _ hrem => exact .dropped rep wrapper entry _ hrep hsentinel hrem

/-- **Every call of a host function** ends in one of these ways. -/
theorem call (wt : Wasmtime) (h : HostState) (call : HostCall) : Called h (h.call wt call) := by
  cases call with
  | allocate alloc capacityHint => exact allocate alloc capacityHint
  | cloneIntoMutable alloc source =>
    show Called h (h.cloneIntoMutable wt alloc source).2
    unfold HostState.cloneIntoMutable
    split
    · exact .refused h
    · rename_i wrapper _
      split
      · exact .refused h
      · rename_i total _
        obtain ⟨m, htable, heq⟩ := readRange_table wrapper 0 total h
        generalize h.readRange wrapper 0 total = result at heq ⊢
        obtain ⟨read, after⟩ := result
        obtain rfl : after = { h with resources := m } := heq
        cases read with
        | error e => exact .quiet m (htable ▸ .refl _)
        | ok bytes => exact allocateCopy alloc bytes total htable
  | write rep offset bytes =>
    show Called h (h.write rep offset bytes).2
    unfold HostState.write
    split
    · exact .refused h
    · rename_i wrapper hget
      obtain ⟨hrep, hkind⟩ := WrapperTable.get_eq_ok.1 hget
      split_ifs
      · exact .refused h
      · exact writeAt hrep hkind offset bytes
  | append rep bytes =>
    show Called h (h.append rep bytes).2
    unfold HostState.append
    split
    · exact .refused h
    · rename_i wrapper hget
      obtain ⟨hrep, hkind⟩ := WrapperTable.get_eq_ok.1 hget
      split
      · exact .refused h
      · exact writeAt hrep hkind _ bytes
  | freeze rep => exact freeze rep
  | read rep offset len =>
    show Called h (h.read rep offset len).2
    unfold HostState.read
    split
    · exact .refused h
    · split
      · exact .refused h
      · exact readRange _ _ _
  | readAll rep =>
    show Called h (h.readAll rep).2
    unfold HostState.readAll
    split
    · exact .refused h
    · split
      · exact .refused h
      · exact readRange _ _ _
  | drop kind rep => exact drop kind rep

end Called

end Torvyn.Engine
