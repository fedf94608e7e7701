/-
# Atomicity of failed operations

A call that fails should leave the manager as it was: the table and its indices, the free
buffers, the reserved bytes and the copy ledger. Each failure undoes what the call has done,
with two exceptions, both of a reservation that is kept: an allocation for which neither the
pool nor the system has memory, and a transfer of an entry that its sender may not give away.
-/
import Torvyn.Resources.BudgetBound

namespace Torvyn

/-! ## A buffer that is popped and pushed back -/

/-- Pushing a popped buffer back restores the pool, when no earlier slot has its address. -/
theorem TierPool.push_pop {pool pool' : TierPool} {ptr allocSize : ℕ}
    (hpop : pool.pop = some ((ptr, allocSize), pool'))
    (hfirst : ∀ j < pool.freeTop, ∀ block, pool.blocks[j]? = some block → block.start ≠ ptr) :
    pool'.push ptr = some pool := by
  unfold pop at hpop
  split_ifs at hpop with hempty
  split at hpop
  · cases hpop
  · rename_i buffer hbuffer
    simp only [Option.some.injEq, Prod.mk.injEq] at hpop
    obtain ⟨⟨rfl, rfl⟩, rfl⟩ := hpop
    obtain ⟨hlt, hget⟩ := List.getElem?_eq_some_iff.1 hbuffer
    have hfind : pool.buffers.findIdx? (fun b => b.ptr = buffer.ptr) = some pool.freeTop := by
      refine List.findIdx?_eq_some_iff_getElem.2 ⟨hlt, by simp [hget], fun j hj => ?_⟩
      have hj' : j < pool.buffers.length := hj.trans hlt
      have hne := hfirst j hj (pool.buffers[j]).block (by
        rw [getElem?_blocks, List.getElem?_eq_getElem hj']
        rfl)
      simpa [PoolBuffer.block] using hne
    have hmodify : (pool.buffers.modify pool.freeTop fun b =>
        { b with nextFree := buffer.nextFree }) = pool.buffers := by
      apply List.ext_getElem?
      intro j
      rw [List.getElem?_modify]
      by_cases hj : pool.freeTop = j
      · subst hj
        rw [hbuffer]
        simp
      · simp [hj]
    simp only [push, hfind, hmodify]

namespace Custody

variable {pools pools' : BufferPoolSet} {heap heap' : Heap} {used : List Buffer} {buffer : Buffer}

/-- The slots of a pool have different addresses. -/
theorem start_ne_of_ne (h : Custody pools heap used) (t : PoolTier) {i j : ℕ} {a b : Block}
    (ha : (pools t).blocks[i]? = some a) (hb : (pools t).blocks[j]? = some b) (hne : i ≠ j) :
    a.start ≠ b.start := by
  intro hstart
  have heq := h.wellFormed.eq_of_start_eq (h.pooled t a (List.mem_of_getElem? ha))
    (h.pooled t b (List.mem_of_getElem? hb)) hstart
  subst heq
  exact hne ((List.getElem?_inj (List.getElem?_eq_some_iff.1 ha).1 (h.nodup t)).1 (ha.trans hb.symm))

/-- **A buffer that is handed out and returned at once leaves the pools as they were.** -/
theorem release_allocate (h : Custody pools heap used) {alloc : Allocator} {n : ℕ}
    (halloc : pools.allocate alloc n heap = some (buffer, pools', heap')) :
    (BufferPoolSet.release buffer pools' heap').1 = pools := by
  unfold BufferPoolSet.allocate at halloc
  dsimp only at halloc
  split at halloc
  · rename_i ptr allocSize pool hpop
    simp only [Option.some.injEq, Prod.mk.injEq] at halloc
    obtain ⟨rfl, rfl, rfl⟩ := halloc
    obtain ⟨-, hblock, -, -⟩ := TierPool.pop_spec hpop
    have hpush := TierPool.push_pop hpop fun j hj block hj' =>
      h.start_ne_of_ne _ hj' hblock hj.ne
    simp only [BufferPoolSet.release, Bool.false_eq_true, if_false, Function.update_self, hpush,
      Function.update_idem, Function.update_eq_self]
  · split at halloc
    · cases halloc
    · simp only [Option.some.injEq, Prod.mk.injEq] at halloc
      obtain ⟨rfl, rfl, -⟩ := halloc
      rfl

end Custody

/-! ## A reservation that is given back -/

namespace ResourceManager

/-- A reservation is made: the owner is a registered component, and its counter, which is
64-bit, stays within the limit. -/
def Charges (registry : BudgetRegistry) (owner : OwnerId) (bytes : ℕ) : Prop :=
  ∃ component budget, owner = .component component ∧ registry.budgets component = some budget ∧
    (budget.currentOwnedBytes + bytes) % 2 ^ 64 ≤ budget.maxOwnedBytes

/-- The counters are in range. -/
def CountersInRange (registry : BudgetRegistry) : Prop :=
  ∀ component budget, registry.budgets component = some budget →
    budget.currentOwnedBytes < 2 ^ 64

variable {registry registry' : BudgetRegistry} {owner : OwnerId} {bytes : ℕ}

/-- A successful reservation either concerns no counter, and neither does its release, or it
is made. -/
theorem reserveFor_cases (h : registry.reserveFor owner bytes = .ok registry') :
    (registry' = registry ∧ registry.releaseFor owner bytes = registry) ∨
    ∃ component budget, owner = .component component ∧
      registry.budgets component = some budget ∧
      (budget.currentOwnedBytes + bytes) % 2 ^ 64 ≤ budget.maxOwnedBytes ∧
      registry'.budgets = Function.update registry.budgets component (some
        ⟨budget.maxOwnedBytes, (budget.currentOwnedBytes + bytes) % 2 ^ 64⟩) := by
  cases owner with
  | component component =>
    simp only [BudgetRegistry.reserveFor, BudgetRegistry.tryReserve] at h
    cases hbudget : registry.budgets component with
    | none =>
      rw [hbudget] at h
      refine .inl ⟨(Except.ok.inj h).symm, ?_⟩
      simp only [BudgetRegistry.releaseFor, BudgetRegistry.releaseBytes, hbudget]
    | some budget =>
      simp only [hbudget, ComponentBudget.tryReserve] at h
      split_ifs at h with hle
      obtain rfl := Except.ok.inj h
      exact .inr ⟨component, budget, rfl, hbudget, Nat.le_of_not_lt hle, rfl⟩
  | _ => exact .inl ⟨(Except.ok.inj h).symm, rfl⟩

/-- A reservation that charges somebody succeeds, and it changes a counter by a positive
amount below the range. -/
theorem reserveFor_of_charges (h : Charges registry owner bytes) (hrange : CountersInRange registry)
    (hpos : 0 < bytes) (hlt : bytes < 2 ^ 64) :
    ∃ registry', registry.reserveFor owner bytes = .ok registry' ∧
      registry'.budgets ≠ registry.budgets := by
  obtain ⟨component, budget, rfl, hbudget, hle⟩ := h
  have hok : ∃ registry', registry.reserveFor (.component component) bytes = .ok registry' ∧
      registry'.budgets component = some
        ⟨budget.maxOwnedBytes, (budget.currentOwnedBytes + bytes) % 2 ^ 64⟩ := by
    simp only [BudgetRegistry.reserveFor, BudgetRegistry.tryReserve, hbudget,
      ComponentBudget.tryReserve, if_neg (Nat.not_lt.2 hle)]
    exact ⟨_, rfl, Function.update_self ..⟩
  obtain ⟨registry', hreserve, hcharged⟩ := hok
  refine ⟨registry', hreserve, fun hsame => ?_⟩
  have hcurrent := hrange component budget hbudget
  rw [hsame, hbudget] at hcharged
  have hnew := congrArg ComponentBudget.currentOwnedBytes (Option.some.inj hcharged)
  simp only at hnew
  omega

/-- A reservation that is given back leaves every counter as it was. -/
theorem releaseFor_reserveFor (hrange : CountersInRange registry) (hbytes : bytes ≤ 2 ^ 64)
    (h : registry.reserveFor owner bytes = .ok registry') :
    (registry'.releaseFor owner bytes).budgets = registry.budgets := by
  rcases reserveFor_cases h with ⟨rfl, hrelease⟩ | ⟨component, budget, rfl, hbudget, -, heq⟩
  · rw [hrelease]
  · have hcurrent := hrange component budget hbudget
    have hback : ((budget.currentOwnedBytes + bytes) % 2 ^ 64 + 2 ^ 64 - bytes) % 2 ^ 64 =
        budget.currentOwnedBytes := by omega
    simp only [BudgetRegistry.releaseFor, BudgetRegistry.releaseBytes, heq, Function.update_self,
      ComponentBudget.release, hback, Function.update_idem]
    rw [← hbudget, Function.update_eq_self]

/-! ## The counters stay in range -/

theorem CountersInRange.update (h : CountersInRange registry) (component : ComponentId)
    (changed : Option ComponentBudget)
    (hchanged : ∀ budget, changed = some budget → budget.currentOwnedBytes < 2 ^ 64)
    (heq : registry'.budgets = Function.update registry.budgets component changed) :
    CountersInRange registry' := by
  intro other budget hbudget
  rw [heq] at hbudget
  by_cases hother : other = component
  · subst hother
    rw [Function.update_self] at hbudget
    exact hchanged budget hbudget
  · rw [Function.update_of_ne hother] at hbudget
    exact h other budget hbudget

theorem CountersInRange.reserve (h : CountersInRange registry)
    (hreserve : registry.reserveFor owner bytes = .ok registry') : CountersInRange registry' := by
  rcases reserveFor_cases hreserve with ⟨rfl, -⟩ | ⟨component, budget, -, -, -, heq⟩
  · exact h
  · refine h.update component _ ?_ heq
    rintro budget' hbudget'
    cases hbudget'
    exact Nat.mod_lt _ (by decide)

theorem CountersInRange.release (h : CountersInRange registry) :
    CountersInRange (registry.releaseFor owner bytes) := by
  cases owner with
  | component component =>
    simp only [BudgetRegistry.releaseFor, BudgetRegistry.releaseBytes]
    split
    · exact h
    · refine h.update component _ ?_ rfl
      rintro budget' hbudget'
      cases hbudget'
      exact Nat.mod_lt _ (by decide)
  | _ => exact h

variable {m : ResourceManager}

theorem CountersInRange.forceReclaim (h : CountersInRange m.budgets) (component : ComponentId)
    (hash : HashOrder) : CountersInRange (m.forceReclaim component hash).2.budgets := by
  have hloop : ∀ (ids : List ResourceId) (m : ResourceManager) (acc : List ResourceReclaimed),
      CountersInRange m.budgets →
      CountersInRange (ids.foldl forceReclaimOne (m, acc)).1.budgets := by
    intro ids
    induction ids with
    | nil => exact fun _ _ h => h
    | cons id ids ih =>
      intro m acc h
      rw [List.foldl_cons]
      rcases forceReclaimOne_cases m acc id with ⟨-, heq⟩ | ⟨entry, table, -, -, heq⟩
      · rw [heq]
        exact ih _ _ h
      · rw [heq]
        exact ih _ _ h
  have hreclaimed := hloop (hash.order (m.componentResources component))
    { m with componentResources := Function.update m.componentResources component ∅ } [] h
  refine hreclaimed.update component none ?_ rfl
  simp

theorem CountersInRange.reclaimFlow (h : CountersInRange m.budgets) (flowId : FlowId)
    (hash : HashOrder) : CountersInRange (m.reclaimFlowBuffers flowId hash).2.budgets := by
  have hloop : ∀ (ids : List ResourceId) (m : ResourceManager) (stats : FlowResourceStats),
      CountersInRange m.budgets →
      CountersInRange (ids.foldl reclaimFlowOne (m, stats)).1.budgets := by
    intro ids
    induction ids with
    | nil => exact fun _ _ h => h
    | cons id ids ih =>
      intro m stats h
      rw [List.foldl_cons]
      rcases reclaimFlowOne_cases m stats id with ⟨-, heq⟩ | ⟨entry, table, -, -, heq⟩
      · rw [heq]
        exact ih _ _ h
      · rw [heq]
        exact ih _ _ h.release
  exact hloop _ { m with flowResources := Function.update m.flowResources flowId ∅ } _ h

/-- Every operation keeps the counters in range. -/
theorem CountersInRange.step (h : CountersInRange m.budgets) (op : Op) :
    CountersInRange (m.step op).2.budgets := by
  have hstep := step_cases m op
  generalize (m.step op).1 = reply at hstep
  generalize (m.step op).2 = after at hstep ⊢
  cases hstep with
  | registeredComponent component maxOwnedBytes =>
    refine h.update component (some (.new _)) ?_ rfl
    rintro budget hbudget
    cases hbudget
    exact Nat.two_pow_pos 64
  | exhausted alloc owner n flowId budgets e _ hbudgets => exact h.reserve hbudgets
  | rolledBack alloc owner n flowId budgets e buffer pools heap _ hbudgets =>
    exact (h.reserve hbudgets).release
  | admitted alloc owner n flowId budgets buffer pools heap id table _ hbudgets =>
    exact h.reserve hbudgets
  | dropped handle caller entry table => exact h.release
  | charged handle sender recipient entry budgets e _ hbudgets => exact h.reserve hbudgets
  | moved handle sender recipient entry budgets _ hbudgets => exact (h.reserve hbudgets).release
  | forceReclaimed component hash => exact h.forceReclaim component hash
  | flowReclaimed flowId hash => exact h.reclaimFlow flowId hash
  | flowReleased flowId hash => exact h.reclaimFlow flowId hash
  | _ => exact h

/-! ## Failed operations -/

/-- Everything that a failed operation should leave alone is as before: the table, both
indices, the free buffers of the pools, the reserved bytes and the copy ledger. -/
structure Unchanged (m after : ResourceManager) : Prop where
  table : after.table = m.table
  componentResources : after.componentResources = m.componentResources
  flowResources : after.flowResources = m.flowResources
  pools : after.pools = m.pools
  reserved : after.budgets.budgets = m.budgets.budgets
  ledger : after.ledger = m.ledger

/-- A reservation is made and then kept by a failure: the owner of an allocation is charged
while neither the pool nor the system has a buffer, or the recipient of a transfer is charged
while the sender may not give the buffer away. -/
def Leaks (m : ResourceManager) : Op → Prop
  | .allocate alloc owner n _ =>
    n ≤ maxBufferSize ∧ Charges m.budgets owner (actualCapacity n) ∧
      m.pools.allocate alloc n m.heap = none
  | .transferOwnership handle sender recipient =>
    ∃ entry, m.table.get handle = .ok entry ∧ Charges m.budgets recipient entry.payloadCapacity ∧
      ¬(entry.state = .owned ∧ entry.owner = sender ∧ entry.borrowCount = 0)
  | _ => False

/-- Whom the checks of a transfer and of a release let pass. -/
theorem checkOwnedBy_eq_ok {handle : BufferHandle} {caller : OwnerId} {entry : ResourceEntry} :
    checkOwnedBy handle caller entry = .ok () ↔
      entry.state = .owned ∧ entry.owner = caller ∧ entry.borrowCount = 0 := by
  unfold checkOwnedBy
  split_ifs with hstate howner hborrows
  · refine iff_of_false ?_ (fun h => hstate h.1)
    split <;> simp
  · exact iff_of_false (by simp) (fun h => howner h.2.1)
  · exact iff_of_false (by simp) (fun h => Nat.ne_of_gt hborrows h.2.2)
  · exact iff_of_true rfl ⟨not_not.1 hstate, not_not.1 howner, Nat.eq_zero_of_not_pos hborrows⟩

/-- A reservation that succeeds without charging anybody changes nothing. -/
theorem reserveFor_of_not_charges (h : registry.reserveFor owner bytes = .ok registry')
    (hnot : ¬Charges registry owner bytes) : registry' = registry := by
  rcases reserveFor_cases h with ⟨rfl, -⟩ | ⟨component, budget, howner, hbudget, hle, -⟩
  · rfl
  · exact absurd ⟨component, budget, howner, hbudget, hle⟩ hnot

/-- The capacity of a buffer is positive and at most 16 MiB. -/
theorem actualCapacity_bounds {n : ℕ} (h : n ≤ maxBufferSize) :
    0 < actualCapacity n ∧ actualCapacity n ≤ maxBufferSize := by
  unfold actualCapacity
  constructor
  · exact lt_max_of_lt_left (by cases PoolTier.forCapacity n <;> decide)
  · exact max_le (by cases PoolTier.forCapacity n <;> decide) h

theorem EntryInvariant.capacity_bounds {entry : ResourceEntry} (h : EntryInvariant entry) :
    0 < entry.payloadCapacity ∧ entry.payloadCapacity ≤ maxBufferSize := by
  constructor
  · exact lt_of_lt_of_le (by cases entry.poolTier <;> decide) h.tier_le
  · exact h.le_tier.trans (PoolTier.largestRequest_le_maxBufferSize _)

/-- A failed operation that leaks no reservation leaves everything as it was. -/
theorem unchanged_of_not_leaks {slots : PoolTier → List Block} (hstored : StoredManager slots m)
    (hrange : CountersInRange m.budgets) {op : Op} (hfailed : (m.step op).1.failed = true)
    (hnot : ¬Leaks m op) : Unchanged m (m.step op).2 := by
  have hstep := step_cases m op
  generalize (m.step op).1 = reply at hstep hfailed
  generalize (m.step op).2 = after at hstep ⊢
  cases hstep with
  | refused op reply => exact ⟨rfl, rfl, rfl, rfl, rfl, rfl⟩
  | exhausted alloc owner n flowId budgets e hn hbudgets hnone =>
    have hsame := reserveFor_of_not_charges hbudgets fun hcharges => hnot ⟨hn, hcharges, hnone⟩
    exact ⟨rfl, rfl, rfl, rfl, congrArg BudgetRegistry.budgets hsame, rfl⟩
  | rolledBack alloc owner n flowId budgets e buffer pools heap hn hbudgets halloc =>
    have hle : actualCapacity n ≤ 2 ^ 64 :=
      (actualCapacity_bounds hn).2.trans (by decide)
    exact ⟨rfl, rfl, rfl, hstored.custody.release_allocate halloc,
      releaseFor_reserveFor hrange hle hbudgets, rfl⟩
  | charged handle sender recipient entry budgets e hget hbudgets hcheck =>
    have hsame := reserveFor_of_not_charges hbudgets fun hcharges =>
      hnot ⟨entry, hget, hcharges, fun hpass => by
        rw [checkOwnedBy_eq_ok.2 hpass] at hcheck
        cases hcheck⟩
    exact ⟨rfl, rfl, rfl, rfl, congrArg BudgetRegistry.budgets hsame, rfl⟩
  | _ => cases hfailed

/-- An operation that leaks a reservation fails and has changed a counter. -/
theorem changed_of_leaks {slots : PoolTier → List Block} (hstored : StoredManager slots m)
    (hrange : CountersInRange m.budgets) {op : Op} (hleaks : Leaks m op) :
    (m.step op).1.failed = true ∧ (m.step op).2.budgets.budgets ≠ m.budgets.budgets := by
  cases op with
  | allocate alloc owner n flowId =>
    obtain ⟨hn, hcharges, hnone⟩ := hleaks
    obtain ⟨hpos, hle⟩ := actualCapacity_bounds hn
    obtain ⟨budgets, hreserve, hne⟩ :=
      reserveFor_of_charges hcharges hrange hpos (hle.trans_lt (by decide))
    simp only [step, allocate, if_neg (Nat.not_lt.2 hn), hreserve, hnone]
    exact ⟨rfl, hne⟩
  | transferOwnership handle sender recipient =>
    obtain ⟨entry, hget, hcharges, hcheck⟩ := hleaks
    obtain ⟨hpos, hle⟩ := (hstored.entry_of_get hget).capacity_bounds
    obtain ⟨budgets, hreserve, hne⟩ :=
      reserveFor_of_charges hcharges hrange hpos (hle.trans_lt (by decide))
    cases hbegin : checkOwnedBy handle sender entry with
    | ok result => exact absurd (checkOwnedBy_eq_ok.1 hbegin) hcheck
    | error e =>
      simp only [step, transferOwnership, hget, hreserve, beginTransfer, hbegin]
      exact ⟨rfl, hne⟩
  | _ => exact hleaks.elim

end ResourceManager

namespace StartedManager

open ResourceManager

/-- The counters are in range in every state of a run. -/
theorem countersInRange_after (s : StartedManager) (ops : List Op) :
    CountersInRange (s.after ops).budgets := by
  apply s.after_invariant (P := fun m => CountersInRange m.budgets)
  · obtain ⟨-, -, -, hbudgets, -⟩ := s.manager_eq
    rw [hbudgets]
    intro component budget hbudget
    cases hbudget
  · exact fun _ op h => h.step op

/-- **Atomicity of failed operations.** In every state of a run, an operation that fails
leaves everything as it was exactly when it leaks no reservation. -/
theorem failed_unchanged_iff (s : StartedManager) (ops : List Op) (op : Op) :
    (((s.after ops).step op).1.failed = true →
        Unchanged (s.after ops) ((s.after ops).step op).2) ↔
      ¬Leaks (s.after ops) op := by
  have hstored := s.stored_after ops
  have hrange := s.countersInRange_after ops
  constructor
  · intro h hleaks
    obtain ⟨hfailed, hne⟩ := changed_of_leaks hstored hrange hleaks
    exact hne (h hfailed).reserved
  · exact fun hnot hfailed => unchanged_of_not_leaks hstored hrange hfailed hnot

/-- Component 0 is registered, and the host allocates a buffer. -/
def hostBuffer : List Op :=
  [.registerComponent ⟨0⟩ (some 1000), .allocate .bump .host 10 ⟨0⟩]

/-- Component 1 cannot give component 0 a buffer of the host, and yet component 0 is charged
256 bytes for it. -/
theorem failed_transfer_charges :
    let op : Op := .transferOwnership ⟨⟨0, 1⟩⟩ (.component ⟨1⟩) (.component ⟨0⟩)
    (((startedNoPools.after hostBuffer).step op).1.failed = true) ∧
      (startedNoPools.after hostBuffer).budgets.budgets ⟨0⟩ = some ⟨1000, 0⟩ ∧
      ((startedNoPools.after hostBuffer).step op).2.budgets.budgets ⟨0⟩ = some ⟨1000, 256⟩ ∧
      ¬Unchanged (startedNoPools.after hostBuffer)
        ((startedNoPools.after hostBuffer).step op).2 := by
  intro op
  have hbefore : (startedNoPools.after hostBuffer).budgets.budgets ⟨0⟩ = some ⟨1000, 0⟩ := rfl
  have hafter : ((startedNoPools.after hostBuffer).step op).2.budgets.budgets ⟨0⟩ =
      some ⟨1000, 256⟩ := rfl
  refine ⟨rfl, hbefore, hafter, fun h => ?_⟩
  rw [h.reserved, hbefore] at hafter
  exact absurd hafter (by decide)

end StartedManager

end Torvyn
